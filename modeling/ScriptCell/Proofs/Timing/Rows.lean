import Mathlib.Data.List.Forall2
import ScriptCell.Timing.Run
import ScriptCell.Proofs.Decimal.Layout
import ScriptCell.Proofs.Timing.Report

/-!
# What a finished run shows and reports

A run that measures its cases without a failure shows a line for each of them and writes a report
with a row for each. `Timing.Reports` says which lines and rows these are, given the names of the
cases: nothing in it depends on how lines and reports are written, only on what a reader finds in
them. `Timing.reports_finished` is the proof that runs are like that.
-/

namespace ScriptCell

/-! ## Figures -/

theorem newline_not_mem_append {s t : String} (hs : '\n' ∉ s.toList) (ht : '\n' ∉ t.toList) :
    '\n' ∉ (s ++ t).toList := by
  rw [String.toList_append]
  exact fun h => (List.mem_append.1 h).elim hs ht

theorem newline_not_mem_ofList {cs : List Char} (h : IsDigits cs) :
    '\n' ∉ (String.ofList cs).toList := by
  rw [String.toList_ofList]
  exact fun hmem => absurd (h _ hmem) (by decide)

/-- Figures with a fixed number of places stay on their line. -/
theorem Binary.newline_not_mem_fixedText {f : Format} (places : Nat) (x : Binary f) :
    '\n' ∉ (x.fixedText places).toList := by
  have hpadded (k n : Nat) : IsDigits (List.replicate k '0' ++ Nat.toDigits 10 n) :=
    isDigits_append.2 ⟨isDigits_zeros k, isDigits_toDigits n⟩
  unfold fixedText
  split
  · decide
  · refine newline_not_mem_append (by split <;> decide) ?_
    split
    · decide
    · refine newline_not_mem_append (newline_not_mem_ofList (isDigits_toDigits _)) ?_
      split
      · decide
      · exact newline_not_mem_append (by decide) (newline_not_mem_ofList (hpadded _ _))

namespace Timing

/-! ## Lines -/

/-- Lines that show the row of a name: the name behind spaces, then its figures. -/
def IsRowLine (name line : String) : Prop :=
  ∃ (width : Nat) (figures : String),
    line = String.ofList (List.replicate width ' ') ++ name ++ ": " ++ figures ++ "\n" ∧
      '\n' ∉ figures.toList

theorem Row.isRowLine_line (r : Row) : IsRowLine r.name r.line := by
  refine ⟨18 - r.name.length, "avg=" ++ r.summary.average.fixedText 3 ++ "ms min=" ++
    r.summary.least.fixedText 3 ++ "ms max=" ++ r.summary.greatest.fixedText 3 ++ "ms | " ++
    r.nanosPerOp.fixedText 1 ++ "ns/op", ?_, ?_⟩
  · simp only [line, padLeft, String.append_assoc]
    rfl
  · simp [Binary.newline_not_mem_fixedText]

/-! ## Runs -/

/-- A row as it is read that is about passes with these counts, which took these totals in
nanoseconds. -/
structure ReadRow.IsAbout (row : ReadRow) (n : Counts) (totals : List Nat) : Prop where
  iterations : row.iterations = n.iterations
  ops : row.ops = n.ops
  average : row.average = readTime (averageOf (totals.map milliseconds))
  least : row.least = readTime (leastOf (totals.map milliseconds))
  greatest : row.greatest = readTime (greatestOf (totals.map milliseconds))

/-- What a run leaves that measured these cases with these counts and totals: a line for each of
them on the output stream, under its name and in their order, and a report that is JSON with a row
for each of them, under its name and in their order, about its own totals. -/
structure Reports (result : RunResult) (path : String) (n : Counts) (totals : Case → List Nat)
    (cs : List Case) : Prop where
  code : result.exit.code = 0
  err : result.exit.output.err = ""
  out : ∃ lines, List.Forall₂ IsRowLine (cs.map (·.name)) lines ∧
    result.exit.output.out = String.join lines ++ ("\nSaved results to " ++ path ++ "\n")
  report : ∃ text doc read, result.report = some (path, text) ∧ Json.Text text.toList doc ∧
    ReadReport.ofJson? doc = some read ∧ read.rows.map (·.name) = cs.map (·.name) ∧
    List.Forall₂ (fun row c => row.IsAbout n (totals c)) read.rows cs

/-- What a run leaves that measured these rows. -/
def finished (timestamp path : String) (rows : List Row) : RunResult :=
  ⟨⟨0, .onOut (String.join (rows.map Row.line)) ++ .onOut (savedLine path)⟩,
    some (path, (Report.mk timestamp version rows).text)⟩

/-- **A finished run shows and reports the cases that it measured**, under their names. -/
theorem reports_finished (timestamp path : String) (n : Counts) (totals : Case → List Nat)
    (cs : List Case) :
    Reports (finished timestamp path (cs.map fun c => c.row n (totals c))) path n totals cs := by
  have hlines : List.Forall₂ IsRowLine (cs.map (·.name))
      ((cs.map fun c => c.row n (totals c)).map Row.line) := by
    simp only [List.map_map, List.forall₂_map_left_iff, List.forall₂_map_right_iff,
      List.forall₂_same]
    exact fun c _ => (c.row n (totals c)).isRowLine_line
  have habout : List.Forall₂ (fun row c => row.IsAbout n (totals c))
      ((cs.map fun c => c.row n (totals c)).map Row.asRead) cs := by
    simp only [List.map_map, List.forall₂_map_left_iff, List.forall₂_same]
    exact fun c _ => ⟨rfl, rfl, rfl, rfl, rfl⟩
  have hnames : ((cs.map fun c => c.row n (totals c)).map Row.asRead).map (·.name) =
      cs.map (·.name) := by
    simp only [List.map_map]
    rfl
  obtain ⟨doc, htext, -, hread⟩ :=
    (Report.mk timestamp version (cs.map fun c => c.row n (totals c))).exists_text
  exact ⟨rfl, rfl, ⟨_, hlines, rfl⟩, _, doc, _, rfl, htext, hread, hnames, habout⟩

end Timing

end ScriptCell
