import Mathlib
import SkySources.Proofs.Settings.Absent
import SkySources.Proofs.Settings.Schema

/-!
# Settings of a document

A document is read as settings if it has a section for this tool that is not empty, and
if each of the two sections in it is accepted. A section that is a table is checked whole:
all its names must be those of settings, and all its values must follow their rules when
every word for an absent value is taken as such. Then the settings have the values of the
table, and their defaults for the other names. A section that is missing is an empty table.

What is not a table is accepted in the place of a section, whatever it is (`ofText_stray`).

What is proved:
  1. `ofDocument_eq_ok_iff`: which documents are read, and as what;
  2. `ofText_validated`: all texts that are read, and that the sections which are tables
     are checked.
-/

namespace SkySources

/-! ## The section for this tool -/

/-- The table in the place of a section, which is empty if there is nothing. -/
def Table.subtable? (t : Table) (name : String) : Option Table :=
  match t.get? name with
  | none => some []
  | some (.table entries) => some entries
  | some _ => none

/-- A table is the section for this tool in a document, and not empty. -/
structure IsSection (document tool : Table) : Prop where
  place : ∃ tools : Table, document.get? "tool" = some (.table tools) ∧
    tools.get? "stp" = some (.table tool)
  ne : tool ≠ []

/-- The document with absent values has the section with absent values. -/
theorem isSection_withAbsentEntries_iff {document tool' : Table} :
    IsSection (Value.withAbsentEntries document) tool' ↔
      ∃ tool, IsSection document tool ∧ Value.withAbsentEntries tool = tool' := by
  constructor
  · rintro ⟨⟨tools', htools, htool⟩, hne⟩
    rw [Value.get?_withAbsentEntries, Option.map_eq_some_iff] at htools
    obtain ⟨v, hv, htable⟩ := htools
    obtain ⟨tools, rfl, rfl⟩ := Value.withAbsent_eq_table_iff.1 htable
    rw [Value.get?_withAbsentEntries, Option.map_eq_some_iff] at htool
    obtain ⟨v, hv', htable'⟩ := htool
    obtain ⟨tool, rfl, rfl⟩ := Value.withAbsent_eq_table_iff.1 htable'
    refine ⟨tool, ⟨⟨tools, hv, hv'⟩, ?_⟩, rfl⟩
    intro hnil
    apply hne
    rw [hnil]
    rfl
  · rintro ⟨tool, ⟨⟨tools, htools, htool⟩, hne⟩, rfl⟩
    refine ⟨⟨Value.withAbsentEntries tools, ?_, ?_⟩, ?_⟩
    · rw [Value.get?_withAbsentEntries, htools]
      rfl
    · rw [Value.get?_withAbsentEntries, htool]
      rfl
    · intro hnil
      cases tool with
      | nil => exact hne rfl
      | cons e rest => cases hnil

/-! ## Sections -/

namespace Schema
variable {α : Type} (S : Schema α)

/-- What is read where a section should stand in the section for this tool. -/
inductive Fills (tool : Table) (name : String) : Slot α → Prop where
  | filled {t : Table} {s : α} : tool.subtable? name = some t →
      S.ofTable? (Value.withAbsentEntries t) = .ok s → Fills tool name (.filled s)
  | stray {v : Value} : tool.get? name = some v → tool.subtable? name = none →
      Fills tool name (.stray v.withAbsent)

/-- Settings are what a table of a file says: all its names are known, the settings have
its values, where some words are absent values, and otherwise their defaults, and every
value follows its rule. -/
structure Reads (t : Table) (s : α) : Prop where
  known : ∀ name ∈ t.names, name ∈ S.names
  value : ∀ name ∈ S.names,
    S.value? s name = ((t.get? name).map Value.withAbsent).or (S.value? S.default name)
  holds : ∀ r ∈ S.rules, ∃ v, S.value? s r.name = some v ∧ r.Holds v

variable {S}

theorem reads_of_ofTable? {t : Table} {s : α}
    (h : S.ofTable? (Value.withAbsentEntries t) = .ok s) : S.Reads t s := by
  obtain ⟨hknown, hchanged⟩ := ofTable?_eq_ok_iff.1 h
  rw [Value.names_withAbsentEntries] at hknown
  refine ⟨hknown, ?_, ?_⟩
  · intro name hname
    rw [changed_iff.1 hchanged name hname, Value.get?_withAbsentEntries]
  · intro r hr
    obtain ⟨v, hv⟩ := exists_value? s (List.mem_map_of_mem hr)
    exact ⟨v, hv, holds_value? s hr hv⟩

theorem ofValue_eq_ok_iff {tool : Table} {name : String} {slot : Slot α} :
    Slot.ofValue S.ofTable?
        ((Table.get? (Value.withAbsentEntries tool) name).getD (.table [])) = .ok slot ↔
      S.Fills tool name slot := by
  have hfilled {t : Table} (ht : tool.subtable? name = some t) :
      (S.ofTable? (Value.withAbsentEntries t)).map .filled = .ok slot ↔
        S.Fills tool name slot := by
    rw [map_eq_ok_iff]
    constructor
    · rintro ⟨s, hs, rfl⟩
      exact .filled ht hs
    · rintro (⟨ht', hs⟩ | ⟨-, hnone⟩)
      · rw [ht] at ht'
        cases ht'
        exact ⟨_, hs, rfl⟩
      · rw [ht] at hnone
        cases hnone
  rw [Value.get?_withAbsentEntries]
  cases hv : tool.get? name with
  | none => exact hfilled (t := []) (by rw [Table.subtable?, hv])
  | some v =>
    by_cases htable : ∃ t, v = .table t
    · obtain ⟨t, rfl⟩ := htable
      exact hfilled (by rw [Table.subtable?, hv])
    · have hnone : tool.subtable? name = none := by
        rw [Table.subtable?, hv]
        cases v with
        | table t => exact absurd ⟨t, rfl⟩ htable
        | _ => rfl
      have hstray : Slot.ofValue S.ofTable? v.withAbsent = .ok (.stray v.withAbsent) := by
        cases hw : v.withAbsent with
        | table t' =>
          obtain ⟨t, rfl, -⟩ := Value.withAbsent_eq_table_iff.1 hw
          exact absurd ⟨t, rfl⟩ htable
        | _ => rfl
      show Slot.ofValue S.ofTable? v.withAbsent = .ok slot ↔ _
      rw [hstray, Except.ok.injEq]
      constructor
      · rintro rfl
        exact .stray hv hnone
      · rintro (⟨ht, -⟩ | ⟨hv', -⟩)
        · rw [hnone] at ht
          cases ht
        · rw [hv] at hv'
          cases hv'
          rfl

/-- Something is read if and only if what is a table is accepted. -/
theorem exists_fills_iff {tool : Table} {name : String} : (∃ slot, S.Fills tool name slot) ↔
    ∀ t, tool.subtable? name = some t → S.Admits (Value.withAbsentEntries t) := by
  constructor
  · rintro ⟨_, ⟨ht, hs⟩ | ⟨-, hnone⟩⟩ t ht'
    · rw [ht] at ht'
      cases ht'
      exact exists_ofTable?_iff.1 ⟨_, hs⟩
    · rw [hnone] at ht'
      cases ht'
  · intro h
    cases ht : tool.subtable? name with
    | none =>
      cases hv : tool.get? name with
      | none =>
        rw [Table.subtable?, hv] at ht
        cases ht
      | some v => exact ⟨_, .stray hv ht⟩
    | some t =>
      obtain ⟨s, hs⟩ := exists_ofTable?_iff.2 (h t ht)
      exact ⟨_, .filled ht hs⟩

/-- What is a table is read as settings that are what it says. -/
theorem Fills.reads {tool t : Table} {name : String} {slot : Slot α} (h : S.Fills tool name slot)
    (ht : tool.subtable? name = some t) : ∃ s, slot = .filled s ∧ S.Reads t s := by
  cases h with
  | filled ht' hs =>
    rw [ht] at ht'
    cases ht'
    exact ⟨_, rfl, reads_of_ofTable? hs⟩
  | stray _ hnone =>
    rw [ht] at hnone
    cases hnone

end Schema

theorem Slot.changed_eq_ok_iff {α : Type} {change : α → Except Mismatch α} {slot : Slot α}
    {a' : α} :
    slot.changed change = .ok a' ↔ ∃ a, slot = .filled a ∧ change a = .ok a' := by
  cases slot with
  | filled a =>
    unfold Slot.changed
    rw [mapError_eq_ok_iff]
    constructor
    · intro h
      exact ⟨a, rfl, h⟩
    · intro h
      obtain ⟨_, heq, h⟩ := h
      cases heq
      exact h
  | stray v =>
    constructor
    · intro h
      cases h
    · intro h
      obtain ⟨_, heq, -⟩ := h
      cases heq

/-! ## Documents -/

namespace Settings

/-- Settings can be changed if both sections are filled, and can be changed. -/
theorem changed_eq_ok_iff {s : Settings} {search output : Table}
    {p : SearchSettings × ExportSettings} : s.changed search output = .ok p ↔
      ∃ a b, s = ⟨.filled a, .filled b⟩ ∧ SearchSettings.schema.changed a search = .ok p.1 ∧
        ExportSettings.schema.changed b output = .ok p.2 := by
  have hbind : s.changed search output = s.search.changed (SearchSettings.changed · search) >>=
      fun a => (s.output.changed (ExportSettings.changed · output)).map (a, ·) := by
    unfold changed
    cases s.search.changed (SearchSettings.changed · search) <;> rfl
  rw [hbind, bind_eq_ok_iff]
  constructor
  · intro h
    obtain ⟨a', ha', hmap⟩ := h
    obtain ⟨b', hb', rfl⟩ := map_eq_ok_iff.1 hmap
    obtain ⟨a, hslot, ha⟩ := Slot.changed_eq_ok_iff.1 ha'
    obtain ⟨b, hslot', hb⟩ := Slot.changed_eq_ok_iff.1 hb'
    exact ⟨a, b, by rw [← hslot, ← hslot'], ha, hb⟩
  · intro h
    obtain ⟨a, b, rfl, ha, hb⟩ := h
    exact ⟨p.1, Slot.changed_eq_ok_iff.2 ⟨a, rfl, ha⟩,
      map_eq_ok_iff.2 ⟨p.2, Slot.changed_eq_ok_iff.2 ⟨b, rfl, hb⟩, rfl⟩⟩

theorem ofValues_eq_ok_iff {search output : Value} {s : Settings} :
    ofValues search output = .ok s ↔
      Slot.ofValue SearchSettings.schema.ofTable? search = .ok s.search ∧
        Slot.ofValue ExportSettings.schema.ofTable? output = .ok s.output := by
  show ofValues search output = .ok s ↔
    Slot.ofValue SearchSettings.ofTable? search = .ok s.search ∧
      Slot.ofValue ExportSettings.ofTable? output = .ok s.output
  unfold ofValues
  cases Slot.ofValue SearchSettings.ofTable? search with
  | error fault =>
    constructor
    · intro h
      cases h
    · intro h
      cases h.1
  | ok a =>
    cases Slot.ofValue ExportSettings.ofTable? output with
    | error fault =>
      constructor
      · intro h
        cases h
      · intro h
        cases h.2
    | ok b =>
      constructor
      · intro h
        cases h
        exact ⟨rfl, rfl⟩
      · intro h
        obtain ⟨ha, hb⟩ := h
        cases ha
        cases hb
        rfl

/-- The section for this tool must be there, and it must not be empty. -/
theorem ofDocument_eq_section {document : Table} {s : Settings} :
    ofDocument document = .ok s ↔ ∃ tool, IsSection document tool ∧ ofSection tool = .ok s := by
  constructor
  · intro h
    unfold ofDocument at h
    split at h
    · next tools htools =>
      split at h
      · cases h
      · next t hne htool =>
        exact ⟨t, ⟨⟨tools, htools, htool⟩, fun hnil => hne hnil⟩, h⟩
      · cases h
    · cases h
  · rintro ⟨tool, ⟨⟨tools, htools, htool⟩, hne⟩, hs⟩
    unfold ofDocument
    rw [htools]
    dsimp only
    rw [htool]
    cases tool with
    | nil => exact absurd rfl hne
    | cons e rest => exact hs

/-- Which documents are read, and as what. -/
theorem ofDocument_eq_ok_iff {document : Table} {s : Settings} :
    ofDocument (Value.withAbsentEntries document) = .ok s ↔
      ∃ tool, IsSection document tool ∧ SearchSettings.schema.Fills tool "sourcefind" s.search ∧
        ExportSettings.schema.Fills tool "export" s.output := by
  simp only [ofDocument_eq_section, isSection_withAbsentEntries_iff]
  constructor
  · rintro ⟨_, ⟨tool, htool, rfl⟩, hs⟩
    obtain ⟨hsearch, houtput⟩ := ofValues_eq_ok_iff.1 hs
    exact ⟨tool, htool, Schema.ofValue_eq_ok_iff.1 hsearch, Schema.ofValue_eq_ok_iff.1 houtput⟩
  · rintro ⟨tool, htool, hsearch, houtput⟩
    exact ⟨_, ⟨tool, htool, rfl⟩, ofValues_eq_ok_iff.2
      ⟨Schema.ofValue_eq_ok_iff.2 hsearch, Schema.ofValue_eq_ok_iff.2 houtput⟩⟩

/-- A document that is read is not nested too deeply to be gone through. -/
theorem depth_le_of_document {text : String} {t : Table} (h : Toml.document text = .ok t) :
    (Value.table t).depth ≤ Value.depthLimit := by
  obtain ⟨entries, -, h⟩ := bind_eq_ok_iff.1 h
  simp only at h
  split at h
  · next hdepth =>
    cases h
    exact hdepth
  · cases h

theorem ofText_eq_ok_iff {text : String} {s : Settings} : ofText text = .ok s ↔
    ∃ document tool, Toml.document text = .ok document ∧ IsSection document tool ∧
      SearchSettings.schema.Fills tool "sourcefind" s.search ∧
      ExportSettings.schema.Fills tool "export" s.output := by
  unfold ofText
  cases hdocument : Toml.document text with
  | error fault =>
    constructor
    · intro h
      cases h
    · intro h
      obtain ⟨document, tool, hdocument, -⟩ := h
      cases hdocument
  | ok document =>
    have habsent : (Value.table document).withAbsent? =
        some (.table (Value.withAbsentEntries document)) :=
      Value.withAbsent?_eq_some_iff.2 ⟨depth_le_of_document hdocument, rfl⟩
    simp only [habsent]
    rw [ofDocument_eq_ok_iff]
    constructor
    · intro h
      obtain ⟨tool, h⟩ := h
      exact ⟨document, tool, rfl, h⟩
    · intro h
      obtain ⟨document', tool, hdocument, h⟩ := h
      cases hdocument
      exact ⟨tool, h⟩

/-- A text is read as settings if and only if it is a document with a section for this tool
in which every section that is a table, or missing, is accepted. Such a section is then
filled with settings that are what it says. -/
theorem ofText_validated (text : String) :
    ((∃ s, ofText text = .ok s) ↔ ∃ document tool,
      Toml.document text = .ok document ∧ IsSection document tool ∧
      (∀ t, tool.subtable? "sourcefind" = some t →
        SearchSettings.schema.Admits (Value.withAbsentEntries t)) ∧
      ∀ t, tool.subtable? "export" = some t →
        ExportSettings.schema.Admits (Value.withAbsentEntries t)) ∧
    ∀ s, ofText text = .ok s → ∃ document tool,
      Toml.document text = .ok document ∧ IsSection document tool ∧
      (∀ t, tool.subtable? "sourcefind" = some t →
        ∃ search, s.search = .filled search ∧ SearchSettings.schema.Reads t search) ∧
      ∀ t, tool.subtable? "export" = some t →
        ∃ output, s.output = .filled output ∧ ExportSettings.schema.Reads t output := by
  refine ⟨⟨?_, ?_⟩, ?_⟩
  · rintro ⟨s, hs⟩
    obtain ⟨document, tool, hdocument, htool, hsearch, houtput⟩ := ofText_eq_ok_iff.1 hs
    exact ⟨document, tool, hdocument, htool, Schema.exists_fills_iff.1 ⟨_, hsearch⟩,
      Schema.exists_fills_iff.1 ⟨_, houtput⟩⟩
  · rintro ⟨document, tool, hdocument, htool, hsearch, houtput⟩
    obtain ⟨search, hsearch⟩ := Schema.exists_fills_iff.2 hsearch
    obtain ⟨output, houtput⟩ := Schema.exists_fills_iff.2 houtput
    exact ⟨⟨search, output⟩,
      ofText_eq_ok_iff.2 ⟨document, tool, hdocument, htool, hsearch, houtput⟩⟩
  · intro s hs
    obtain ⟨document, tool, hdocument, htool, hsearch, houtput⟩ := ofText_eq_ok_iff.1 hs
    exact ⟨document, tool, hdocument, htool, fun t => hsearch.reads, fun t => houtput.reads⟩

/-- A file with three settings of the search, of which one is said to be absent. -/
def sparseText : String :=
  "[tool.stp.sourcefind]\nrms_estimate = \"None\"\nconnectivity = 8\nmedian_method = \"zero\"\n"

def sparseSearch : Table :=
  [("rms_estimate", .text "None"), ("connectivity", .whole 8), ("median_method", .text "zero")]

theorem document_sparse : Toml.document sparseText =
    .ok [("tool", .table [("stp", .table [("sourcefind", .table sparseSearch)])])] := by
  cbv

/-- The settings of the file with three of them, and those of the export, of which it has
none. -/
theorem ofText_validated_sparse : ∃ s search output, ofText sparseText = .ok s ∧
    s.search = .filled search ∧ SearchSettings.schema.Reads sparseSearch search ∧
    s.output = .filled output ∧ ExportSettings.schema.Reads [] output := by
  have hs : ofText sparseText =
      .ok ⟨.filled { connectivity := .whole 8, median := .zero }, .filled {}⟩ := by
    rw [ofText, document_sparse]
    rfl
  obtain ⟨document, tool, hdocument, htool, hsearch, houtput⟩ :=
    (ofText_validated sparseText).2 _ hs
  rw [document_sparse] at hdocument
  cases hdocument
  obtain ⟨⟨tools, htools, htool⟩, -⟩ := htool
  cases htools
  cases htool
  obtain ⟨search, hfilled, hreads⟩ := hsearch sparseSearch rfl
  obtain ⟨output, hfilled', hreads'⟩ := houtput [] rfl
  exact ⟨_, search, output, hs, hfilled, hreads, hfilled', hreads'⟩

/-- A file with a number in the place of a section. -/
def strayText : String := "[tool.stp]\nsourcefind = 1\n"

/-- A number in the place of a section is accepted, and there are no settings of a search. -/
theorem ofText_stray :
    ∃ s, ofText strayText = .ok s ∧ ∀ search, s.search ≠ .filled search := by
  have hdocument : Toml.document strayText =
      .ok [("tool", .table [("stp", .table [("sourcefind", .whole 1)])])] := by
    cbv
  have hs : ofText strayText = .ok ⟨.stray (.whole 1), .filled {}⟩ := by
    rw [ofText, hdocument]
    rfl
  exact ⟨_, hs, by rintro search ⟨⟩⟩

end Settings
end SkySources
