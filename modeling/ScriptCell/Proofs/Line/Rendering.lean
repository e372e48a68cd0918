import ScriptCell.Line.Rendering
import ScriptCell.Proofs.Line.Literal
import ScriptCell.Proofs.Value.Interchange

/-!
# What is shown identifies the outcome

The literal of a value has the value's kind when it is typed in (`Value.kind_readOperand_literal`),
and values of one kind with one literal are equal (`Value.equal_of_literal_eq`). What is shown for
an outcome begins with a painted text, its head. The name of a variable is shown as it is and may
imitate control sequences; every other head holds none, so its end is seen
(`Outcome.head_eq_of_render_eq`) and what stands behind it tells the forms apart. For variables the
forms are told apart by their last letters, and the names by their lengths. So no two different
outcomes are shown alike (`Outcome.shown_outcome_is_determined`).
-/

namespace ScriptCell

/-! ## Literals -/

namespace Value

variable {v w : Value}

/-- Numbers with one text are one value. -/
theorem same_of_text_eq {x y : Single} (h : displayLayout.text x = displayLayout.text y) :
    x.Same y := by
  have hread (z : Single) : ∃ z', Binary.ofText? .single (displayLayout.text z) = some z' ∧
      z.Same z' := by
    cases hz : z.isNaN with
    | false => exact ⟨z, ofText?_display_self hz, .refl z⟩
    | true =>
      refine ⟨.nan .single false, ?_, .nans hz (Binary.isNaN_nan _)⟩
      rw [ofText?_display, if_pos hz]
  obtain ⟨x', hx, hxx⟩ := hread x
  obtain ⟨y', hy, hyy⟩ := hread y
  rw [h, hy] at hx
  exact hxx.trans (Option.some.inj hx ▸ hyy.symm)

/-- **Values with one literal are equal.** -/
theorem equal_of_literal_eq (h : v.literal = w.literal) : v.equal w = true := by
  have hkind : v.kind = w.kind := by
    rw [← kind_readOperand_literal, h, kind_readOperand_literal]
  cases v <;> cases w <;> cases hkind
  case undefined.undefined => rfl
  case number.number x y => exact equal_number_iff.2 (same_of_text_eq h)
  case string.string s t => exact decide_eq_true (quote_injective h)
  case bool.bool b c =>
    cases b <;> cases c <;> first | rfl | exact absurd h (by decide)
  case variableRef.variableRef m n =>
    have hchars := congrArg String.toList h
    simp only [literal, display, String.toList_append] at hchars
    exact decide_eq_true (String.toList_inj.1 (List.append_cancel_left hchars))
  case null.null => rfl

/-- The literals of all values but variables hold no control sequences. -/
theorem escape_notMem_literal (hv : v.kind ≠ .variableRef) : '\x1b' ∉ v.literal.toList := by
  cases v with
  | undefined | null => decide
  | bool b => cases b <;> decide
  | variableRef name => exact absurd rfl hv
  | string s => exact escape_notMem_quote s
  | number x =>
    obtain ⟨n, hn, -⟩ := numeralText_of_ofText? (ofText?_display .single x)
    intro hmem
    exact absurd (hn.inNumeralRange _ hmem) (by decide)

end Value

/-! ## Painted texts -/

/-- The last letter of the name of a kind. -/
def Kind.lastLetter : Kind → Char
  | .undefined => 'd'
  | .number => 'r'
  | .string => 'g'
  | .bool | .null => 'l'
  | .variableRef => 'e'

/-- The last character in front of the control sequence that ends a text. -/
def closing (s : String) : Option Char := (s.toList.reverse.drop 5).head?

/-- A painted text at the end shows its last character. -/
theorem closing_append_paint (front : String) (colour : Colour) {s : String} {cs : List Char}
    {c : Char} (hs : s.toList = cs ++ [c]) : closing (front ++ colour.paint s) = some c := by
  simp [closing, Colour.paint, hs]

/-- Two heads without control sequences are the same if what is shown is. -/
theorem eq_of_paint_append_eq {s t rest rest' : String} (hs : '\x1b' ∉ s.toList)
    (ht : '\x1b' ∉ t.toList)
    (h : Colour.brightBlue.paint s ++ rest = Colour.brightBlue.paint t ++ rest') : s = t := by
  have hchars := congrArg String.toList h
  simp only [Colour.paint, String.toList_append, List.append_assoc,
    List.append_cancel_left_eq] at hchars
  exact String.toList_inj.1 (append_cons_inj hs ht hchars).1

/-- Two heads of one length are the same if what is shown is. -/
theorem eq_of_paint_append_eq_of_length {s t rest rest' : String} (hlen : s.length = t.length)
    (h : Colour.brightBlue.paint s ++ rest = Colour.brightBlue.paint t ++ rest') : s = t := by
  have hchars := congrArg String.toList h
  simp only [Colour.paint, String.toList_append, List.append_assoc,
    List.append_cancel_left_eq] at hchars
  rw [← String.length_toList, ← String.length_toList] at hlen
  exact String.toList_inj.1 (List.append_inj_left hchars hlen)

namespace Value

/-- The kind behind a literal. -/
def kindMark (v : Value) : String := " " ++ Colour.brightBlack.paint (": " ++ v.kind.name)

/-- The lines of views below a value. -/
def viewLines (v : Value) : String :=
  renderViewLine "number" (v.numberView.map viewLayout.text) ++
    renderViewLine "bool  " (v.truthView.map truthWord) ++
    renderViewLine "string" (v.textView.map quote)

theorem render_eq (v : Value) : v.render = Colour.brightBlue.paint v.literal ++ v.kindMark :=
  String.append_assoc

theorem render_views (v : Value) :
    (Outcome.views v).render =
      Colour.brightBlue.paint v.literal ++ (v.kindMark ++ v.viewLines) := by
  simp only [Outcome.render, render_eq, viewLines, String.append_assoc]

/-- A value is shown with its kind at the end. -/
theorem closing_render (v : Value) : closing v.render = some v.kind.lastLetter := by
  have hlast : (": " ++ v.kind.name).toList =
      (": " ++ v.kind.name).toList.dropLast ++ [v.kind.lastLetter] := by
    cases v.kind <;> decide
  exact closing_append_paint _ _ hlast

/-- At the end of the views there is a bracket behind a failure, or else a quote. -/
theorem closing_render_views (v : Value) :
    closing (Outcome.views v).render = some (if v.kind = .variableRef then '>' else '"') := by
  have hline : (Outcome.views v).render =
      v.render ++ renderViewLine "number" (v.numberView.map viewLayout.text) ++
        renderViewLine "bool  " (v.truthView.map truthWord) ++
        ("\n  " ++ Colour.yellow.paint "string" ++ " ") ++ renderView (v.textView.map quote) := by
    simp only [Outcome.render, renderViewLine, String.append_assoc]
  have hquote (front s : String) : closing (front ++ renderView (.ok (quote s))) = some '"' :=
    closing_append_paint front _ (toList_quote s)
  rw [hline]
  cases v with
  | variableRef name =>
    have hfailure (e : Error) :
        ("<" ++ e.message ++ ">").toList = ('<' :: e.message.toList) ++ ['>'] := by simp
    exact closing_append_paint _ _ (hfailure _)
  | _ => exact hquote _ _

/-- Values that are shown with one head are equal, if both are variables with names of one length or
none is. -/
theorem equal_of_paint_append_eq {v w : Value} {rest rest' : String}
    (hkind : v.kind = .variableRef ↔ w.kind = .variableRef)
    (hlen : ∀ m n, v = .variableRef m → w = .variableRef n → m.length = n.length)
    (h : Colour.brightBlue.paint v.literal ++ rest = Colour.brightBlue.paint w.literal ++ rest') :
    v.equal w = true := by
  by_cases hv : v.kind = .variableRef
  · obtain ⟨m, rfl⟩ := exists_eq_variableRef hv
    obtain ⟨n, rfl⟩ := exists_eq_variableRef (hkind.1 hv)
    have hlength : ("$" ++ m).length = ("$" ++ n).length := by
      rw [String.length_append, String.length_append, hlen m n rfl rfl]
    exact equal_of_literal_eq (eq_of_paint_append_eq_of_length hlength h)
  · have hw : w.kind ≠ .variableRef := fun hw => hv (hkind.2 hw)
    exact equal_of_literal_eq
      (eq_of_paint_append_eq (escape_notMem_literal hv) (escape_notMem_literal hw) h)

/-- **Values that are shown alike are equal.** -/
theorem equal_of_render_eq {v w : Value} (h : v.render = w.render) : v.equal w = true := by
  have hkind : v.kind = .variableRef ↔ w.kind = .variableRef := by
    have hclosing := congrArg closing h
    rw [closing_render, closing_render] at hclosing
    revert hclosing
    cases v.kind <;> cases w.kind <;> decide
  rw [render_eq, render_eq] at h
  refine equal_of_paint_append_eq hkind ?_ h
  rintro m n rfl rfl
  have hlength := congrArg String.length h
  simp only [kindMark, Colour.paint, literal, display, kind_variableRef,
    String.length_append] at hlength
  omega

theorem message_unresolved (name : String) (target : Kind) :
    (Error.unresolved name target).message =
      "Cannot convert unresolved variable '$" ++ name ++ "' to " ++ target.name := rfl

/-- A view that fails shows the name of the variable once. -/
theorem length_failing_view (label name : String) (target : Kind) :
    (renderViewLine label (.error (.unresolved name target))).length =
      (renderViewLine label (.error (.unresolved "" target))).length + name.length := by
  have hmessage : (Error.unresolved name target).message.length =
      (Error.unresolved "" target).message.length + name.length := by
    rw [message_unresolved, message_unresolved]
    simp only [String.length_append, String.length_empty]
    omega
  have hline (e e' : Error) : (renderViewLine label (.error e)).length + e'.message.length =
      (renderViewLine label (.error e')).length + e.message.length := by
    simp only [renderViewLine, renderView, Colour.paint, String.length_append]
    omega
  have hlength := hline (.unresolved name target) (.unresolved "" target)
  omega

theorem length_viewLines (name : String) :
    (variableRef name).viewLines.length = (variableRef "").viewLines.length + 3 * name.length := by
  have hlines (name : String) : (variableRef name).viewLines =
      renderViewLine "number" (.error (.unresolved name .number)) ++
        renderViewLine "bool  " (.error (.unresolved name .bool)) ++
        renderViewLine "string" (.error (.unresolved name .string)) := rfl
  rw [hlines, hlines]
  simp only [String.length_append]
  rw [length_failing_view "number", length_failing_view "bool  ", length_failing_view "string"]
  omega

/-- **Values whose views are shown alike are equal.** The name of a variable occurs in the head and
in each of the three views, which all fail. -/
theorem equal_of_render_views_eq {v w : Value}
    (h : (Outcome.views v).render = (Outcome.views w).render) : v.equal w = true := by
  have hkind : v.kind = .variableRef ↔ w.kind = .variableRef := by
    have hclosing := congrArg closing h
    rw [closing_render_views, closing_render_views] at hclosing
    revert hclosing
    cases v.kind <;> cases w.kind <;> decide
  rw [render_views, render_views] at h
  refine equal_of_paint_append_eq hkind ?_ h
  rintro m n rfl rfl
  have hm := length_viewLines m
  have hn := length_viewLines n
  have hlength := congrArg String.length h
  simp only [kindMark, Colour.paint, literal, display, kind_variableRef,
    String.length_append] at hlength
  omega

end Value

namespace Outcome

/-- A value alone is not shown like its views or those of another one. -/
theorem render_value_ne_views (v w : Value) :
    (Outcome.value v).render ≠ (Outcome.views w).render := by
  intro h
  have hclosing := congrArg closing h
  rw [render, Value.closing_render, Value.closing_render_views] at hclosing
  revert hclosing
  cases v.kind <;> cases w.kind <;> decide

/-- A truth value is not shown like the views of a value. -/
theorem render_truth_ne_views (b : Bool) (w : Value) :
    (Outcome.truth b).render ≠ (Outcome.views w).render := by
  intro h
  have hclosing := congrArg closing h
  rw [Value.closing_render_views] at hclosing
  revert hclosing
  cases b <;> cases w.kind <;> decide

/-- A truth value is not shown like a value: the truth values of scripts have other words, and only
variables end like it. -/
theorem render_truth_ne_value (b : Bool) (v : Value) :
    (Outcome.truth b).render ≠ (Outcome.value v).render := by
  intro h
  have hkind : v.kind = .variableRef := by
    have hclosing := congrArg closing h
    rw [render, render, Value.closing_render] at hclosing
    revert hclosing
    cases b <;> cases v.kind <;> decide
  obtain ⟨name, rfl⟩ := Value.exists_eq_variableRef hkind
  have hchars := congrArg String.toList h
  cases b <;> simp [render, Value.render, Colour.paint, Value.literal, Value.display,
    truthWord] at hchars

/-- Two outcomes are of one form and carry equal values. -/
inductive Same : Outcome → Outcome → Prop
  | value {v w : Value} : v.equal w = true → Same (.value v) (.value w)
  | truth (b : Bool) : Same (.truth b) (.truth b)
  | views {v w : Value} : v.equal w = true → Same (.views v) (.views w)

/-- **What is shown identifies the outcome.** Outcomes that are shown alike are of one form and
carry equal values, whatever texts and names of variables hold. Values with one literal are
equal. -/
theorem shown_outcome_is_determined :
    (∀ o o' : Outcome, o.render = o'.render → o.Same o') ∧
    ∀ v w : Value, v.literal = w.literal → v.equal w = true := by
  refine ⟨fun o o' h => ?_, fun v w => Value.equal_of_literal_eq⟩
  cases o with
  | value v =>
    cases o' with
    | value w => exact .value (Value.equal_of_render_eq h)
    | truth b => exact absurd h.symm (render_truth_ne_value b v)
    | views w => exact absurd h (render_value_ne_views v w)
  | truth b =>
    cases o' with
    | value w => exact absurd h (render_truth_ne_value b w)
    | truth c =>
      obtain rfl : b = c := by
        revert h
        cases b <;> cases c <;> decide
      exact .truth b
    | views w => exact absurd h (render_truth_ne_views b w)
  | views v =>
    cases o' with
    | value w => exact absurd h.symm (render_value_ne_views w v)
    | truth c => exact absurd h.symm (render_truth_ne_views c v)
    | views w => exact .views (Value.equal_of_render_views_eq h)

/-- Not-a-numbers of both signs are different outcomes that are shown alike: no more than their
equality is determined. -/
theorem nans_are_shown_alike :
    Outcome.value (.number (.nan .single false)) ≠ .value (.number (.nan .single true)) ∧
      (Outcome.value (.number (.nan .single false))).render =
        (Outcome.value (.number (.nan .single true))).render ∧
      (Outcome.value (.number (.nan .single false))).Same
        (.value (.number (.nan .single true))) := by
  have hshown : (Outcome.value (.number (.nan .single false))).render =
      (Outcome.value (.number (.nan .single true))).render := by decide
  exact ⟨by decide, hshown, shown_outcome_is_determined.1 _ _ hshown⟩

end Outcome

end ScriptCell
