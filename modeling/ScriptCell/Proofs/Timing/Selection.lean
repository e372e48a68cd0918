import ScriptCell.Proofs.Timing.Rows

/-!
# Which cases are run

Values of the option for cases select those cases of the table whose name is the lower case of a
value (`Timing.mem_selectCases_iff`), so a selection depends on the set of these lower cases only,
and of that set on the names of cases in it (`Timing.selectCases_congr`). It is a part of the table
in the order of the table, and empty exactly if there are values but none of them names a case
(`Timing.selectCases_eq_nil_iff`).

Lowering letters is a parameter, `IsLowering`: which letters there are beyond those of the names
makes no difference. The values are what the arguments say in any spelling of the option
(`Timing.ofArgs_of_caseArgs`). What a run leaves is stated with the names that it shows and reports
(`Timing.Reports`).
-/

namespace ScriptCell.Timing

/-! ## Lower case -/

/-- Text that is made of small letters of ASCII and underscores. -/
def IsPlainName (s : String) : Prop := ∀ c ∈ s.toList, c.isLower = true ∨ c = '_'

instance (s : String) : Decidable (IsPlainName s) := s.toList.decidableBAll _

/-- Functions that put text into lower case. Only capital letters of ASCII and the Kelvin sign have
a small letter of ASCII as their lower case, so they agree on which texts become a plain name. -/
def IsLowering (lower : String → String) : Prop :=
  ∀ s name, IsPlainName name → (lower s = name ↔ foldCase s = name)

/-- Whether a value is the name of a case in some letter case. -/
def Names (lower : String → String) (value : String) (c : Case) : Prop := lower value = c.name

/-- Whether values of the option select a case: one of them names it, or there are none. -/
def IsSelected (lower : String → String) (values : List String) (c : Case) : Prop :=
  values = [] ∨ ∃ v ∈ values, Names lower v c

variable {lower : String → String} {vs ws : List String} {c : Case}

theorem isPlainName_of_mem (hc : c ∈ cases) : IsPlainName c.name := by
  have h : ∀ c ∈ cases, IsPlainName c.name := by decide
  exact h c hc

theorem isLowering_foldCase : IsLowering foldCase := fun _ _ _ => Iff.rfl

/-! ## Selections -/

theorem contains_foldCase_iff (hlower : IsLowering lower) (hc : c ∈ cases) :
    (vs.map foldCase).contains c.name = true ↔ ∃ v ∈ vs, Names lower v c := by
  rw [List.contains_iff_mem, List.mem_map]
  exact exists_congr fun v => and_congr_right fun _ =>
    (hlower v c.name (isPlainName_of_mem hc)).symm

/-- **A case is selected** if no value is given or one of them is its name in some letter case. -/
theorem mem_selectCases_iff (hlower : IsLowering lower) :
    c ∈ selectCases vs ↔ c ∈ cases ∧ IsSelected lower vs c := by
  unfold selectCases IsSelected
  split
  · next hvs => simp only [hvs, true_or, and_true]
  · next hvs =>
    rw [List.mem_filter, or_iff_right hvs]
    exact and_congr_right fun hc => contains_foldCase_iff hlower hc

/-- What is selected stands in the order of the table. -/
theorem selectCases_sublist (vs : List String) : (selectCases vs).Sublist cases := by
  unfold selectCases
  split
  · exact .refl _
  · exact List.filter_sublist

/-- Nothing is selected twice. -/
theorem nodup_selectCases (vs : List String) : ((selectCases vs).map (·.name)).Nodup :=
  names_nodup.sublist ((selectCases_sublist vs).map _)

/-- Lists that name the same cases select the same, if both or none of them are empty. -/
theorem selectCases_congr (hlower : IsLowering lower) (hnil : vs = [] ↔ ws = [])
    (h : ∀ c ∈ cases, (∃ v ∈ vs, Names lower v c) ↔ ∃ w ∈ ws, Names lower w c) :
    selectCases vs = selectCases ws := by
  unfold selectCases
  split
  · next hvs => rw [if_pos (hnil.1 hvs)]
  · next hvs =>
    rw [if_neg fun hws => hvs (hnil.2 hws)]
    refine List.filter_congr fun c hc => Bool.eq_iff_iff.2 ?_
    rw [contains_foldCase_iff hlower hc, contains_foldCase_iff hlower hc, h c hc]

/-- Nothing is selected exactly if there are values and none of them names a case. -/
theorem selectCases_eq_nil_iff (hlower : IsLowering lower) :
    selectCases vs = [] ↔ vs ≠ [] ∧ ∀ v ∈ vs, ∀ c ∈ cases, ¬ Names lower v c := by
  rw [List.eq_nil_iff_forall_not_mem]
  simp only [mem_selectCases_iff hlower, IsSelected, not_and, not_or, not_exists]
  constructor
  · intro h
    obtain ⟨c, hc⟩ : ∃ c, c ∈ cases := ⟨_, .head _⟩
    exact ⟨(h c hc).1, fun v hv c hc => (h c hc).2 v hv⟩
  · rintro ⟨hvs, h⟩ c hc
    exact ⟨hvs, fun v hv => h v hv c hc⟩

/-! ## Spellings of the option -/

/-- Arguments that are taken as the value of an option before them. -/
def IsValueArg (arg : String) : Prop := ∀ c cs, arg.toList ≠ '-' :: c :: cs

/-- Arguments that give values to the option for cases, each in one of its spellings, and these
values. -/
inductive CaseArgs : List String → List String → Prop
  | nil : CaseArgs [] []
  | attached {flag : String} {args vs : List String} (hflag : flag = "--case=" ∨ flag = "-c=")
      (v : String) (h : CaseArgs args vs) : CaseArgs ((flag ++ v) :: args) (v :: vs)
  | joined {c : Char} {args vs : List String} (hc : c ≠ '=') (cs : List Char)
      (h : CaseArgs args vs) :
      CaseArgs (String.ofList ('-' :: 'c' :: c :: cs) :: args) (String.ofList (c :: cs) :: vs)
  | next {flag v : String} {args vs : List String} (hflag : flag = "--case" ∨ flag = "-c")
      (hv : IsValueArg v) (h : CaseArgs args vs) : CaseArgs (flag :: v :: args) (v :: vs)

namespace OptionReader

variable {r r' : OptionReader} {o : Options} {args : List String}

/-- A reader between two arguments that has read `o`, its last option settled. -/
structure HasRead (r : OptionReader) (o : Options) : Prop where
  ended : r.ended = false
  help : r.options.help = false
  settle : ∃ seen, r.settle = .ok ⟨o, seen, none, false⟩
  no_help : o.help = false

theorem hasRead_start : HasRead start .default := ⟨rfl, rfl, ⟨[], rfl⟩, rfl⟩

/-- A value that is attached to the option is read with it. -/
theorem HasRead.attached (h : HasRead r o) (v : String) :
    ∃ r', r.valued .case (some v) = .ok r' ∧ HasRead r' { o with cases := o.cases ++ [v] } := by
  obtain ⟨seen, hseen⟩ := h.settle
  refine ⟨⟨{ o with cases := o.cases ++ [v] }, .case :: seen, none, false⟩, ?_, rfl, h.no_help,
    ⟨_, rfl⟩, h.no_help⟩
  rw [valued, hseen]
  rfl

theorem plainArg_of_isValueArg {v : String} (hv : IsValueArg v) (hended : r.ended = false) :
    r.step v = r.plainArg v := by
  unfold step
  rw [hended]
  simp only [Bool.false_eq_true, if_false]
  split
  · next h => exact absurd h (hv _ _)
  · next h => exact absurd h (hv _ _)
  · next h => exact absurd h (hv _ _)
  · rfl

/-- A value in the next argument is kept until the option is settled. -/
theorem HasRead.next (h : HasRead r o) {v : String} (hv : IsValueArg v) :
    ∃ r' r'', r.valued .case none = .ok r' ∧ r'.options.help = false ∧ r'.step v = .ok r'' ∧
      HasRead r'' { o with cases := o.cases ++ [v] } := by
  obtain ⟨seen, hseen⟩ := h.settle
  refine ⟨⟨o, seen, some (.case, none), false⟩, ⟨o, seen, some (.case, some v), false⟩, ?_,
    h.no_help, plainArg_of_isValueArg hv rfl, rfl, h.no_help, ⟨_, rfl⟩, h.no_help⟩
  rw [valued, hseen]
  rfl

theorem step_attached {flag : String} (hflag : flag = "--case=" ∨ flag = "-c=") (v : String)
    (hended : r.ended = false) : r.step (flag ++ v) = r.valued .case (some v) := by
  have hv : String.ofList v.toList = v := String.ofList_toList
  unfold step
  rw [hended, String.toList_append]
  rcases hflag with rfl | rfl
  · exact congrArg (fun v => r.valued .case (some v)) hv
  · exact congrArg (fun v => r.valued .case (some v)) hv

theorem step_joined {c : Char} (hc : c ≠ '=') (cs : List Char) (hended : r.ended = false) :
    r.step (String.ofList ('-' :: 'c' :: c :: cs)) =
      r.valued .case (some (String.ofList (c :: cs))) := by
  have hdash : r.step (String.ofList ('-' :: 'c' :: c :: cs)) = r.shortArg 'c' (c :: cs) := by
    unfold step
    rw [hended, String.toList_ofList]
    rfl
  have hfind : (Flag.all.find? fun f => f.short? = some 'c') = some .case := rfl
  have hvalue : Flag.case.valueName? = some "CASES" := rfl
  rw [hdash, shortArg, hfind]
  simp only [hvalue]
  split
  · next h => cases h
  · next h => cases h
  · next h => exact absurd (List.cons.inj h).1 hc
  · rfl

theorem step_next {flag : String} (hflag : flag = "--case" ∨ flag = "-c")
    (hended : r.ended = false) :
    r.step flag = r.valued .case none := by
  unfold step
  rw [hended]
  rcases hflag with rfl | rfl <;> rfl

theorem readAll_cons {arg : String} (hstep : r.step arg = .ok r')
    (hhelp : r'.options.help = false) :
    r.readAll (arg :: args) = r'.readAll args := by
  rw [readAll, hstep]
  exact if_neg (by rw [hhelp]; decide)

/-- The values of the option are read in their order, however it is spelled. -/
theorem HasRead.readAll_eq (hargs : CaseArgs args vs) (h : HasRead r o) :
    r.readAll args = .ok { o with cases := o.cases ++ vs } := by
  induction hargs generalizing r o with
  | nil =>
    obtain ⟨seen, hseen⟩ := h.settle
    rw [readAll, hseen, List.append_nil]
    rfl
  | @attached flag args vs hflag v _ ih =>
    obtain ⟨r', hr', h'⟩ := h.attached v
    rw [readAll_cons ((step_attached hflag v h.ended).trans hr') h'.help, ih h', List.append_assoc]
    rfl
  | @joined c args vs hc cs _ ih =>
    obtain ⟨r', hr', h'⟩ := h.attached (String.ofList (c :: cs))
    rw [readAll_cons ((step_joined hc cs h.ended).trans hr') h'.help, ih h', List.append_assoc]
    rfl
  | @next flag v args vs hflag hv _ ih =>
    obtain ⟨r', r'', hr', hhelp, hr'', h''⟩ := h.next hv
    rw [readAll_cons ((step_next hflag h.ended).trans hr') hhelp, readAll_cons hr'' h''.help,
      ih h'', List.append_assoc]
    rfl

end OptionReader

/-- **Arguments that only give cases** set nothing but the list of these. -/
theorem ofArgs_of_caseArgs {args : List String} (h : CaseArgs args vs) :
    Options.ofArgs args = .ok { Options.default with cases := vs } :=
  OptionReader.hasRead_start.readAll_eq h

/-! ## Runs -/

/-- The counts that options give. -/
def Options.counts (o : Options) : Counts := ⟨o.iterations, o.warmup, o.ops⟩

/-- What a run leaves that has nothing to measure. -/
def unmatched : RunResult := ⟨⟨2, .onErr "No matching cases. Use --list to see available.\n"⟩, none⟩

/-- The rows of cases that are measured without a failure. -/
theorem measureRows_of_ok {totals : Case → Except Error (List Nat)} {times : Case → List Nat}
    {cs : List Case} (n : Counts) (h : ∀ c ∈ cs, totals c = .ok (times c)) :
    measureRows totals n cs = (cs.map fun c => c.row n (times c), none) := by
  induction cs with
  | nil => rfl
  | cons c cs ih =>
    obtain ⟨hc, hcs⟩ := List.forall_mem_cons.1 h
    rw [measureRows, hc, ih hcs]
    rfl

section

variable {totals : Counts → Case → Except Error (List Nat)} {args : List String} {o : Options}
  {timestamp path : String} {times : Case → List Nat}

/-- What a run on options does depends on the selection, and not on the values that give it. -/
theorem run_congr {args' : List String} (ho : Options.ofArgs args = .ok o)
    (ho' : Options.ofArgs args' = .ok { o with cases := vs })
    (h : selectCases vs = selectCases o.cases) :
    run totals timestamp path args' = run totals timestamp path args := by
  have hplan : Plan.ofArgs args' = Plan.ofArgs args := by
    rw [Plan.ofArgs, Plan.ofArgs, ho, ho']
    simp only [Plan.ofOptions, h]
  rw [run, run, hplan]

/-- A run that selects nothing stops. -/
theorem run_of_selectCases_eq_nil (ho : Options.ofArgs args = .ok o) (hlist : o.list = false)
    (hhelp : o.help = false) (h : selectCases o.cases = []) :
    run totals timestamp path args = unmatched := by
  have hplan : Plan.ofArgs args = .stop unmatched.exit := by
    rw [Plan.ofArgs, ho]
    simp [Plan.ofOptions, hlist, hhelp, h, unmatched]
  rw [run, hplan]
  rfl

/-- A run that measures all cases of its selection shows and reports their rows. -/
theorem run_of_selectCases_ne_nil (ho : Options.ofArgs args = .ok o)
    (hlist : o.list = false) (hhelp : o.help = false) (h : selectCases o.cases ≠ [])
    (hok : ∀ c ∈ selectCases o.cases, totals o.counts c = .ok (times c)) :
    run totals timestamp path args = finished timestamp (o.output.getD path)
      ((selectCases o.cases).map fun c => c.row o.counts (times c)) := by
  have hplan : Plan.ofArgs args = .measure (selectCases o.cases) o.counts o.output := by
    rw [Plan.ofArgs, ho]
    simp [Plan.ofOptions, hlist, hhelp, h, Options.counts]
  rw [run, hplan]
  simp only [measureRows_of_ok o.counts hok]
  rfl

/-- **Selection ignores how the option is written.** Take a run on arguments that give values to the
option for cases and ask neither for the table nor for help, and let the cases that are selected be
measured without a failure: those of the table whose name is the lower case of a value, or all of
them if no value is given.

If no value is given, or one of them names a case, the run shows one line for each selected case and
reports one row for it, under its name and about the times that were measured for it, each once and
in the order of the table, and nothing else.

Other values with the same set of lower cases give the same run. So do other values that name the
same cases, if there is one that they name: further values that name none change nothing.

The run exits with 2 exactly if values are given and none of them names a case, and exactly then it
writes no report. -/
theorem selection_by_lowered_values (hlower : IsLowering lower) (ho : Options.ofArgs args = .ok o)
    (hlist : o.list = false) (hhelp : o.help = false)
    (hok : ∀ c ∈ cases, IsSelected lower o.cases c → totals o.counts c = .ok (times c)) :
    (o.cases = [] ∨ (∃ v ∈ o.cases, ∃ c ∈ cases, Names lower v c) → ∃ selected : List Case,
      Reports (run totals timestamp path args) (o.output.getD path) o.counts times selected ∧
      run totals timestamp path args =
        finished timestamp (o.output.getD path) (selected.map fun c => c.row o.counts (times c)) ∧
      (∀ c, c ∈ selected ↔ c ∈ cases ∧ IsSelected lower o.cases c) ∧
      (selected.map (·.name)).Nodup ∧ selected.Sublist cases ∧
      (o.cases = [] → selected = cases)) ∧
    (∀ args' vs, Options.ofArgs args' = .ok { o with cases := vs } →
      (∀ name, name ∈ vs.map lower ↔ name ∈ o.cases.map lower) →
      run totals timestamp path args' = run totals timestamp path args) ∧
    (∀ args' vs, Options.ofArgs args' = .ok { o with cases := vs } →
      (∃ v ∈ o.cases, ∃ c ∈ cases, Names lower v c) →
      (∀ c ∈ cases, (∃ v ∈ vs, Names lower v c) ↔ ∃ v ∈ o.cases, Names lower v c) →
      run totals timestamp path args' = run totals timestamp path args) ∧
    ((run totals timestamp path args).exit.code = 2 ↔
      o.cases ≠ [] ∧ ∀ v ∈ o.cases, ∀ c ∈ cases, ¬ Names lower v c) ∧
    ((run totals timestamp path args).report = none ↔
      (run totals timestamp path args).exit.code = 2) := by
  have hmeasured : ∀ c ∈ selectCases o.cases, totals o.counts c = .ok (times c) := fun c hc =>
    have ⟨hmem, hselected⟩ := (mem_selectCases_iff hlower).1 hc
    hok c hmem hselected
  have hsame (args' : List String) (vs : List String)
      (ho' : Options.ofArgs args' = .ok { o with cases := vs }) (hnil : vs = [] ↔ o.cases = [])
      (h : ∀ c ∈ cases, (∃ v ∈ vs, Names lower v c) ↔ ∃ v ∈ o.cases, Names lower v c) :
      run totals timestamp path args' = run totals timestamp path args :=
    run_congr ho ho' (selectCases_congr hlower hnil h)
  refine ⟨fun h => ?_, fun args' vs ho' h => ?_, fun args' vs ho' hknown h => ?_, ?_⟩
  · have hne : selectCases o.cases ≠ [] := fun hnone => by
      obtain ⟨hne, hunknown⟩ := (selectCases_eq_nil_iff hlower).1 hnone
      rcases h with hnil | ⟨v, hv, c, hc, hname⟩
      · exact hne hnil
      · exact hunknown v hv c hc hname
    have hrun : run totals timestamp path args = _ :=
      run_of_selectCases_ne_nil ho hlist hhelp hne hmeasured
    refine ⟨selectCases o.cases, ?_, hrun, fun c => mem_selectCases_iff hlower,
      nodup_selectCases o.cases, selectCases_sublist o.cases, fun hnil => by rw [hnil]; rfl⟩
    rw [hrun]
    exact reports_finished timestamp _ o.counts times _
  · have hnil : vs = [] ↔ o.cases = [] := by
      rw [← List.map_eq_nil_iff (f := lower), ← List.map_eq_nil_iff (f := lower) (l := o.cases)]
      simp only [List.eq_nil_iff_forall_not_mem, h]
    simp only [List.mem_map] at h
    exact hsame args' vs ho' hnil fun c _ => h c.name
  · obtain ⟨v, hv, c, hc, hname⟩ := hknown
    obtain ⟨w, hw, -⟩ := (h c hc).2 ⟨v, hv, hname⟩
    exact hsame args' vs ho' (iff_of_false (List.ne_nil_of_mem hw) (List.ne_nil_of_mem hv)) h
  · rw [← selectCases_eq_nil_iff hlower]
    by_cases h : selectCases o.cases = []
    · rw [run_of_selectCases_eq_nil ho hlist hhelp h]
      exact ⟨iff_of_true rfl h, iff_of_true rfl rfl⟩
    · rw [run_of_selectCases_ne_nil ho hlist hhelp h hmeasured]
      exact ⟨iff_of_false nofun h, iff_of_false nofun nofun⟩

/-- Two cases against the order of the table, one of them with a Kelvin sign and one twice, beside a
value that names none: these two are shown and reported. The same cases without that value in other
letters and spellings give the same run; that value alone gives none. -/
theorem selection_of_kelvin_sign :
    let times : Case → List Nat := fun _ => [3, 5]
    let totals : Counts → Case → Except Error (List Nat) := fun _ c => .ok (times c)
    let args := ["--case=NEG_Text", "-c", "add_un\u212aNOWN", "-c=bogus", "--case", "neg_text"]
    let args' := ["-cadd_unknown", "--case=nEG_tEXT"]
    let o : Options :=
      { Options.default with cases := ["NEG_Text", "add_un\u212aNOWN", "bogus", "neg_text"] }
    let o' : Options := { Options.default with cases := ["bogus"] }
    (IsLowering foldCase ∧ Options.ofArgs args = .ok o ∧
      Options.ofArgs args' = .ok { o with cases := ["add_unknown", "nEG_tEXT"] } ∧
      (∃ selected : List Case,
        Reports (run totals "now" "report" args) "report" ⟨10, 2, 100000⟩ times selected ∧
        ∀ c ∈ cases, c ∈ selected ↔ c.name = "add_unknown" ∨ c.name = "neg_text") ∧
      run totals "now" "report" args' = run totals "now" "report" args) ∧
    (Options.ofArgs ["-c", "bogus"] = .ok o' ∧
      (run totals "now" "report" ["-c", "bogus"]).exit.code = 2) := by
  intro times totals args args' o o'
  have ho : Options.ofArgs args = .ok o := rfl
  have ho' : Options.ofArgs args' = .ok { o with cases := ["add_unknown", "nEG_tEXT"] } := rfl
  have hbogus : Options.ofArgs ["-c", "bogus"] = .ok o' :=
    ofArgs_of_caseArgs (.next (.inr rfl) nofun .nil)
  have hsame : ∀ c ∈ cases, (∃ v ∈ ["add_unknown", "nEG_tEXT"], foldCase v = c.name) ↔
      ∃ v ∈ o.cases, foldCase v = c.name := by decide +kernel
  have hknown : ∃ v ∈ o.cases, ∃ c ∈ cases, foldCase v = c.name := by decide +kernel
  have hnames : ∀ c ∈ cases, (o.cases = [] ∨ ∃ v ∈ o.cases, foldCase v = c.name) ↔
      c.name = "add_unknown" ∨ c.name = "neg_text" := by decide +kernel
  have hnone : o'.cases ≠ [] ∧ ∀ v ∈ o'.cases, ∀ c ∈ cases, foldCase v ≠ c.name := by
    decide +kernel
  obtain ⟨hshown, -, hdrop, -⟩ := @selection_by_lowered_values foldCase totals args o "now"
    "report" times isLowering_foldCase ho rfl rfl fun _ _ _ => rfl
  obtain ⟨selected, hreports, -, hmem, -⟩ := hshown (.inr hknown)
  exact ⟨⟨isLowering_foldCase, ho, ho',
      ⟨selected, hreports, fun c hc => ((hmem c).trans (and_iff_right hc)).trans (hnames c hc)⟩,
      hdrop _ _ ho' hknown hsame⟩,
    hbogus, (selection_by_lowered_values isLowering_foldCase hbogus rfl rfl
      fun _ _ _ => rfl).2.2.2.1.2 hnone⟩

end

end ScriptCell.Timing
