import ScriptCell.Timing.Report
import ScriptCell.Proofs.Timing.Json

/-!
# Reports are read back

A reader of a report looks its fields up by their names and takes every number for a time of 64
bits, null for a time that is none. It gets the texts, the counts and the rows of the report as they
are, and each finite time to the bit (`report_text_reads_back`). So a report whose times are finite
is the only one with its text.
-/

namespace ScriptCell

/-! ## Looking fields up -/

namespace Json

/-- The field of a name, read in some way. -/
def get? {α : Type} (j : Json) (name : String) (read : Json → Option α) : Option α :=
  match j with
  | .object fields => (fields.lookup name).bind read
  | _ => none

/-- Reads a text. -/
def text? : Json → Option String
  | .text s => some s
  | _ => none

/-- Reads a count: a number without a sign, a point and an exponent. -/
def count? : Json → Option Nat
  | .number ⟨false, n, 0⟩ => some n
  | _ => none

/-- Reads a time, if there is one. -/
def time? : Json → Option (Option Double)
  | .number d => some (some (.ofDecimal .double d))
  | .null => some none
  | _ => none

/-- Reads the items of an array. -/
def items? {α : Type} (read : Json → Option α) : Json → Option (List α)
  | .array items => items.mapM read
  | _ => none

end Json

namespace Timing

/-! ## Reading a report -/

/-- A row as it is read. -/
structure ReadRow where
  name : String
  iterations : Nat
  ops : Nat
  average : Option Double
  least : Option Double
  greatest : Option Double
  nanosPerOp : Option Double

/-- A report as it is read. -/
structure ReadReport where
  timestamp : String
  version : String
  rows : List ReadRow

/-- Reads a row. -/
def ReadRow.ofJson? (j : Json) : Option ReadRow := do
  let name ← j.get? "name" Json.text?
  let iterations ← j.get? "iterations" Json.count?
  let ops ← j.get? "ops_per_iteration" Json.count?
  let average ← j.get? "avg_total_ms" Json.time?
  let least ← j.get? "min_total_ms" Json.time?
  let greatest ← j.get? "max_total_ms" Json.time?
  let nanosPerOp ← j.get? "avg_ns_per_op" Json.time?
  pure ⟨name, iterations, ops, average, least, greatest, nanosPerOp⟩

/-- Reads a report. -/
def ReadReport.ofJson? (j : Json) : Option ReadReport := do
  let timestamp ← j.get? "timestamp" Json.text?
  let version ← j.get? "quill_version" Json.text?
  let rows ← j.get? "benchmarks" (Json.items? ReadRow.ofJson?)
  pure ⟨timestamp, version, rows⟩

/-- A number as a time: none if it is not finite. -/
def readTime (x : Double) : Option Double := if x.isFinite then some x else none

/-- What there is to read of a row. -/
def Row.asRead (r : Row) : ReadRow :=
  ⟨r.name, r.iterations, r.ops, readTime r.summary.average, readTime r.summary.least,
    readTime r.summary.greatest, readTime r.nanosPerOp⟩

/-- What there is to read of a report. -/
def Report.asRead (r : Report) : ReadReport := ⟨r.timestamp, r.version, r.rows.map Row.asRead⟩

/-! ## What was written is read -/

namespace JsonValue

/-- A field is found under its name. -/
theorem FieldsReadAs.exists_lookup {fs : List (String × JsonValue)} {js : List (String × Json)}
    (h : FieldsReadAs fs js) {k : String} {v : JsonValue} (hk : fs.lookup k = some v) :
    ∃ j, js.lookup k = some j ∧ v.ReadAs j := by
  induction fs generalizing js with
  | nil => cases hk
  | cons f fs ih =>
    cases h with
    | @cons k' v' j _ js hv h =>
      rw [List.lookup_cons] at hk ⊢
      split at hk
      · cases hk
        exact ⟨j, rfl, hv⟩
      · exact ih h hk

theorem ReadAs.get? {α : Type} {fs : List (String × JsonValue)} {j : Json}
    (h : (JsonValue.object fs).ReadAs j) {k : String}
    {v : JsonValue} (hk : fs.lookup k = some v) {read : Json → Option α} {a : α}
    (hread : ∀ j, v.ReadAs j → read j = some a) : j.get? k read = some a := by
  cases h with
  | object h =>
    obtain ⟨j, hj, hv⟩ := h.exists_lookup hk
    rw [Json.get?, hj]
    exact hread j hv

theorem ReadAs.text? {s : String} {j : Json} (h : (JsonValue.text s).ReadAs j) :
    j.text? = some s := by
  cases h
  rfl

theorem ReadAs.count? {n : Nat} {j : Json} (h : (JsonValue.count n).ReadAs j) :
    j.count? = some n := by
  cases h
  rfl

theorem ReadAs.time? {x : Double} {j : Json} (h : (JsonValue.real x).ReadAs j) :
    j.time? = some (readTime x) := by
  cases h with
  | real hx hd => rw [Json.time?, hd, readTime, if_pos hx]
  | notFinite hx =>
    rw [Json.time?, readTime, hx]
    rfl

theorem ItemsReadAs.mapM {α β : Type} {write : β → JsonValue} {read : Json → Option α} {f : β → α}
    (hread : ∀ b j, (write b).ReadAs j → read j = some (f b)) {bs : List β} {js : List Json}
    (h : ItemsReadAs (bs.map write) js) : js.mapM read = some (bs.map f) := by
  induction bs generalizing js with
  | nil =>
    cases h
    rfl
  | cons b bs ih =>
    cases h with
    | cons hv h =>
      rw [List.mapM_cons, hread b _ hv, ih h]
      rfl

/-- Items are read one by one. -/
theorem ReadAs.items? {α β : Type} {write : β → JsonValue} {read : Json → Option α} {f : β → α}
    (hread : ∀ b j, (write b).ReadAs j → read j = some (f b)) {bs : List β} {j : Json}
    (h : (JsonValue.array (bs.map write)).ReadAs j) : j.items? read = some (bs.map f) := by
  cases h with
  | array h => exact h.mapM hread

end JsonValue

/-- A row is read as it was. -/
theorem Row.ofJson?_of_readAs (r : Row) (j : Json) (h : r.toJson.ReadAs j) :
    ReadRow.ofJson? j = some r.asRead := by
  have hname : j.get? "name" Json.text? = some r.name := h.get? rfl fun _ h => h.text?
  have hiterations : j.get? "iterations" Json.count? = some r.iterations :=
    h.get? rfl fun _ h => h.count?
  have hops : j.get? "ops_per_iteration" Json.count? = some r.ops := h.get? rfl fun _ h => h.count?
  have haverage : j.get? "avg_total_ms" Json.time? = some (readTime r.summary.average) :=
    h.get? rfl fun _ h => h.time?
  have hleast : j.get? "min_total_ms" Json.time? = some (readTime r.summary.least) :=
    h.get? rfl fun _ h => h.time?
  have hgreatest : j.get? "max_total_ms" Json.time? = some (readTime r.summary.greatest) :=
    h.get? rfl fun _ h => h.time?
  have hnanos : j.get? "avg_ns_per_op" Json.time? = some (readTime r.nanosPerOp) :=
    h.get? rfl fun _ h => h.time?
  rw [ReadRow.ofJson?, hname, hiterations, hops, haverage, hleast, hgreatest, hnanos]
  rfl

/-- A report is read as it was. -/
theorem Report.ofJson?_of_readAs (r : Report) (j : Json) (h : r.toJson.ReadAs j) :
    ReadReport.ofJson? j = some r.asRead := by
  have htimestamp : j.get? "timestamp" Json.text? = some r.timestamp :=
    h.get? rfl fun _ h => h.text?
  have hversion : j.get? "quill_version" Json.text? = some r.version :=
    h.get? rfl fun _ h => h.text?
  have hrows : j.get? "benchmarks" (Json.items? ReadRow.ofJson?) = some (r.rows.map Row.asRead) :=
    h.get? rfl fun _ h => h.items? Row.ofJson?_of_readAs
  rw [ReadReport.ofJson?, htimestamp, hversion, hrows]
  rfl

/-! ## Reports with finite times -/

/-- Whether all times of a row are finite. -/
def Row.HasFiniteTimes (r : Row) : Prop :=
  r.summary.average.isFinite = true ∧ r.summary.least.isFinite = true ∧
    r.summary.greatest.isFinite = true ∧ r.nanosPerOp.isFinite = true

instance (r : Row) : Decidable r.HasFiniteTimes := inferInstanceAs (Decidable (_ ∧ _))

/-- Whether all times of a report are finite. -/
def Report.HasFiniteTimes (r : Report) : Prop := ∀ row ∈ r.rows, row.HasFiniteTimes

instance (r : Report) : Decidable r.HasFiniteTimes :=
  inferInstanceAs (Decidable (∀ row ∈ r.rows, _))

theorem eq_of_readTime_eq {x y : Double} (hx : x.isFinite = true) (h : readTime y = readTime x) :
    y = x := by
  rw [readTime, readTime, if_pos hx] at h
  split at h
  · exact Option.some.inj h
  · cases h

/-- A row with finite times is all that is read of it. -/
theorem Row.eq_of_asRead_eq {r r' : Row} (hr : r.HasFiniteTimes) (h : r'.asRead = r.asRead) :
    r' = r := by
  obtain ⟨haverage, hleast, hgreatest, hnanos⟩ := hr
  obtain ⟨name, iterations, ops, ⟨average, least, greatest⟩, nanosPerOp⟩ := r
  obtain ⟨name', iterations', ops', ⟨average', least', greatest'⟩, nanosPerOp'⟩ := r'
  simp only [asRead, ReadRow.mk.injEq] at h
  obtain ⟨rfl, rfl, rfl, h1, h2, h3, h4⟩ := h
  rw [eq_of_readTime_eq haverage h1, eq_of_readTime_eq hleast h2, eq_of_readTime_eq hgreatest h3,
    eq_of_readTime_eq hnanos h4]

theorem Row.eq_of_map_asRead_eq {rs rs' : List Row} (hrs : ∀ r ∈ rs, r.HasFiniteTimes)
    (h : rs'.map asRead = rs.map asRead) : rs' = rs := by
  induction rs generalizing rs' with
  | nil => exact List.map_eq_nil_iff.1 h
  | cons r rs ih =>
    obtain ⟨r', rs', rfl, hr, h⟩ := List.map_eq_cons_iff.1 h
    obtain ⟨hfinite, hrest⟩ := List.forall_mem_cons.1 hrs
    rw [eq_of_asRead_eq hfinite hr, ih hrest h]

/-- A report with finite times is all that is read of it. -/
theorem Report.eq_of_asRead_eq {r r' : Report} (hr : r.HasFiniteTimes) (h : r'.asRead = r.asRead) :
    r' = r := by
  obtain ⟨timestamp, version, rows⟩ := r
  obtain ⟨timestamp', version', rows'⟩ := r'
  simp only [asRead, ReadReport.mk.injEq] at h
  obtain ⟨rfl, rfl, hrows⟩ := h
  rw [Row.eq_of_map_asRead_eq hr hrows]

/-! ## The text of a report -/

/-- The text of a report is JSON for its document, which is read as the report. -/
theorem Report.exists_text (r : Report) :
    ∃ doc, Json.Text r.text.toList doc ∧ r.toJson.ReadAs doc ∧
    ReadReport.ofJson? doc = some r.asRead := by
  obtain ⟨doc, hread, hpart⟩ := r.toJson.exists_partText_write 0
  have htext := Json.Text.mk Json.isSpace_nil hpart Json.isSpace_nil
  rw [List.nil_append, List.append_nil] at htext
  exact ⟨doc, htext, hread, r.ofJson?_of_readAs doc hread⟩

/-- **A report is read back from its text.** The text of any report is JSON; a reader gets one
document out of it, with the fields of the report under their names and in their order, and from the
document the texts, the counts and the rows as they are, each finite time to the bit and none for
the others. No other report has the text of a report whose times are finite. -/
theorem report_text_reads_back (r : Report) :
    (∃ doc, Json.Text r.text.toList doc ∧ Json.ofChars? r.text.toList = some doc ∧
      r.toJson.ReadAs doc ∧
      ReadReport.ofJson? doc = some r.asRead) ∧
    (r.HasFiniteTimes → ∀ r' : Report, r'.text = r.text ↔ r' = r) := by
  obtain ⟨doc, htext, hread, hreport⟩ := r.exists_text
  refine ⟨⟨doc, htext, Json.ofChars?_eq_some_iff.2 htext, hread, hreport⟩,
    fun hr r' => ⟨fun heq => ?_, ?_⟩⟩
  · obtain ⟨doc', htext', -, hreport'⟩ := r'.exists_text
    rw [heq] at htext'
    obtain rfl := htext'.unique htext
    exact Report.eq_of_asRead_eq hr (Option.some.inj (hreport'.symm.trans hreport))
  · rintro rfl
    rfl

/-- Two reports that differ only in the sign of a zero have different texts. -/
theorem report_texts_of_opposite_zeros :
    (Report.mk "now" "1.0" [.ofTimes "math/add" 1 1 [.zero .double true]]).HasFiniteTimes ∧
      (Report.mk "now" "1.0" [.ofTimes "math/add" 1 1 [.zero .double false]]).text ≠
        (Report.mk "now" "1.0" [.ofTimes "math/add" 1 1 [.zero .double true]]).text := by
  have hfinite :
      (Report.mk "now" "1.0" [.ofTimes "math/add" 1 1 [.zero .double true]]).HasFiniteTimes := by
    decide +kernel
  refine ⟨hfinite, fun htext => ?_⟩
  have heq := ((report_text_reads_back _).2 hfinite _).1 htext
  exact absurd heq (by decide +kernel)

end Timing

end ScriptCell
