import Mathlib
import SkySources.Proofs.Traverse
import SkySources.Settings

/-!
# What a section of settings asks for

Every setting has a rule: the kinds that its value may be of and, for some, the choices
that it must be one of. A schema is a section of settings with its rules. It says that
settings are the tables whose values follow the rules (`exists_toTable_iff`), and that
settings are changed by a table to those whose table is overlaid by it
(`changed_eq_ok_iff`). Both sections have a schema, and everything about what a section
accepts and what it is read as is proved of schemas.

What is proved:
  1. `setting_eq_ok_iff`, `choose_eq_ok_iff`: one setting is read as it would be shown;
  2. `holds_quantity_iff`, `holds_choice_iff` and their like: what rules admit;
  3. `SearchSettings.schema`, `ExportSettings.schema`: the two sections;
  4. `Schema.exists_ofTable?_iff`: a table is accepted if and only if all its names are
     known and all its values follow the rules;
  5. `Schema.ofTable?_eq_ok_iff`, `Schema.changed_iff`: then the settings have its values and
     otherwise their defaults, and every value follows its rule (`Schema.holds_value?`).
-/

namespace SkySources

/-- What a setting asks for. -/
structure Rule where
  name : String
  kinds : List Kind
  /-- The choices, if there are any. -/
  choices : Option (List String) := none

/-- A value follows a rule. -/
structure Rule.Holds (r : Rule) (v : Value) : Prop where
  kind : v.ofKinds r.name r.kinds = .ok ()
  choice : ∀ choices ∈ r.choices, v.ofChoices r.name choices = .ok ()

/-! ## Tables -/

namespace Table

/-- The table with the values that another one has for its names. -/
def overlaid (base t : Table) : Table := base.map fun e => (e.1, (t.get? e.1).getD e.2)

theorem get?_overlaid (base t : Table) (name : String) :
    (base.overlaid t).get? name = (base.get? name).map (t.get? name).getD := by
  induction base with
  | nil => rfl
  | cons e rest ih =>
    show List.lookup name ((e.1, (t.get? e.1).getD e.2) :: overlaid rest t) =
      (List.lookup name (e :: rest)).map _
    rw [List.lookup_cons, List.lookup_cons]
    cases h : name == e.1 with
    | true => rw [eq_of_beq h]; rfl
    | false => exact ih

theorem get?_eq_none_iff {t : Table} {name : String} : t.get? name = none ↔ name ∉ t.names := by
  rw [get?, List.lookup_eq_none_iff, names, List.mem_map]
  constructor
  · rintro h ⟨e, he, rfl⟩
    exact (bne_iff_ne.1 (h e he)) rfl
  · intro h e he
    exact bne_iff_ne.2 fun hname => h ⟨e, he, hname.symm⟩

/-- A table without a name twice is its names with their values. -/
theorem eq_map_names {t : Table} (h : t.names.Nodup) :
    t = t.names.map fun name => (name, (t.get? name).getD .nothing) := by
  induction t with
  | nil => rfl
  | cons e rest ih =>
    obtain ⟨hfirst, hrest⟩ : e.1 ∉ names rest ∧ (names rest).Nodup := List.nodup_cons.1 h
    have hhead : get? (e :: rest) e.1 = some e.2 := List.lookup_cons_self
    have htail : ∀ name ∈ names rest, get? (e :: rest) name = get? rest name := by
      intro name hname
      have hne : (name == e.1) = false := beq_eq_false_iff_ne.2 fun heq => hfirst (heq ▸ hname)
      rw [get?, List.lookup_cons, hne]
      rfl
    show e :: rest = (e.1, (get? (e :: rest) e.1).getD .nothing) :: (names rest).map _
    rw [hhead, List.map_congr_left fun name hname => by rw [htail name hname], ← ih hrest]
    rfl

/-- Tables without a name twice that have the same names and values are the same. -/
theorem eq_of_get?_eq {t t' : Table} (h : t.names.Nodup) (hnames : t'.names = t.names)
    (hget : ∀ name ∈ t.names, t'.get? name = t.get? name) : t' = t := by
  calc t' = t'.names.map fun name => (name, (t'.get? name).getD .nothing) :=
        eq_map_names (hnames ▸ h)
    _ = t.names.map fun name => (name, (t.get? name).getD .nothing) := by
        rw [hnames]
        exact List.map_congr_left fun name hname => by rw [hget name hname]
    _ = t := (eq_map_names h).symm

theorem names_overlaid (base t : Table) : (base.overlaid t).names = base.names := by
  rw [overlaid, names, names, List.map_map]
  rfl

/-! ## One setting -/

section Setting
variable {t : Table} {name : String} {β : Type} {read : Value → Option β} {toValue : β → Value}

/-- A setting is read as what has the value that the table gives, or the value of the
default. -/
theorem setting_eq_ok_iff (h : ∀ v b, read v = some b ↔ toValue b = v) {kinds : List Kind}
    {d b : β} : t.setting name kinds read d = .ok b ↔
      toValue b = (t.get? name).getD (toValue d) := by
  unfold setting
  cases t.get? name with
  | none =>
    have hd : read (toValue d) = some d := (h _ _).2 rfl
    rw [Option.getD_none, ← h, hd, Except.ok.injEq, Option.some.injEq]
  | some v =>
    rw [Option.getD_some, ← h]
    dsimp only
    cases read v with
    | none =>
      constructor
      · intro h
        cases h
      · intro h
        cases h
    | some b' => rw [Except.ok.injEq, Option.some.injEq]

theorem quantity?_eq_some_iff (v : Value) (q : Quantity) :
    quantity? v = some q ↔ q.toValue = v := by
  cases q <;> cases v <;> simp [quantity?, Quantity.toValue, eq_comm]

theorem count?_eq_some_iff (v : Value) (c : Count) : count? v = some c ↔ c.toValue = v := by
  cases c <;> cases v <;> simp [count?, Count.toValue, eq_comm]

theorem truth?_eq_some_iff (v : Value) (b : Bool) : truth? v = some b ↔ .truth b = v := by
  cases v <;> simp [truth?, eq_comm]

theorem text?_eq_some_iff (v : Value) (s : String) : text? v = some s ↔ .text s = v := by
  cases v <;> simp [text?, eq_comm]

theorem orAbsent_eq_some_iff (h : ∀ v b, read v = some b ↔ toValue b = v)
    (hread : read .nothing = none) (v : Value) (o : Option β) :
    orAbsent read v = some o ↔ (o.map toValue).getD .nothing = v := by
  cases o with
  | none =>
    cases v <;> simp [orAbsent]
  | some b =>
    have hb : toValue b ≠ .nothing := by
      intro hb
      rw [(h _ _).2 hb] at hread
      cases hread
    show _ ↔ toValue b = v
    cases v with
    | nothing =>
      constructor
      · intro h
        cases h
      · exact fun h => absurd h hb
    | _ =>
      rw [← h]
      simp [orAbsent]

theorem quantity_eq_ok_iff {d q : Quantity} : t.quantity name d = .ok q ↔
    q.toValue = (t.get? name).getD d.toValue :=
  setting_eq_ok_iff quantity?_eq_some_iff

theorem quantityOrAbsent_eq_ok_iff {d q : Option Quantity} :
    t.quantityOrAbsent name d = .ok q ↔ (q.map Quantity.toValue).getD .nothing =
      (t.get? name).getD ((d.map Quantity.toValue).getD .nothing) :=
  setting_eq_ok_iff (orAbsent_eq_some_iff quantity?_eq_some_iff rfl)

theorem count_eq_ok_iff {d c : Count} : t.count name d = .ok c ↔
    c.toValue = (t.get? name).getD d.toValue :=
  setting_eq_ok_iff count?_eq_some_iff

theorem countOrAbsent_eq_ok_iff {d c : Option Count} :
    t.countOrAbsent name d = .ok c ↔ (c.map Count.toValue).getD .nothing =
      (t.get? name).getD ((d.map Count.toValue).getD .nothing) :=
  setting_eq_ok_iff (orAbsent_eq_some_iff count?_eq_some_iff rfl)

theorem truth_eq_ok_iff {d b : Bool} : t.truth name d = .ok b ↔
    Value.truth b = (t.get? name).getD (.truth d) :=
  setting_eq_ok_iff truth?_eq_some_iff

theorem text_eq_ok_iff {d s : String} : t.text name d = .ok s ↔
    Value.text s = (t.get? name).getD (.text d) :=
  setting_eq_ok_iff text?_eq_some_iff

/-- Choices whose names tell them apart. -/
def TellsApart (choices : List β) (nameOf : β → String) : Prop :=
  ∀ c, choices.find? (fun d => nameOf d = nameOf c) = some c

theorem choose_eq_ok_iff {choices : List β} {nameOf : β → String} (h : TellsApart choices nameOf)
    {text : String} {c : β} : choose name text choices nameOf = .ok c ↔ nameOf c = text := by
  unfold choose
  constructor
  · intro hc
    split at hc
    · next d hd =>
      rw [← Except.ok.inj hc]
      have hname := List.find?_some hd
      exact of_decide_eq_true hname
    · cases hc
  · rintro rfl
    rw [h c]

theorem tellsApart_median : TellsApart Median.Method.all Median.Method.name := by
  intro c
  cases c <;> rfl

theorem tellsApart_differencing : TellsApart Differencing.all Differencing.name := by
  intro c
  cases c <;> rfl

theorem tellsApart_solver : TellsApart Solver.all Solver.name := by
  intro c
  cases c <;> rfl

end Setting
end Table

/-! ## Rules -/

namespace Rule
variable {name : String} {v : Value}

theorem holds_iff {kinds : List Kind} :
    (⟨name, kinds, none⟩ : Rule).Holds v ↔ v.ofKinds name kinds = .ok () :=
  ⟨fun h => h.kind, fun h => ⟨h, fun choices hchoices => by cases hchoices⟩⟩

/-- Where a float is asked for, a whole number does as well. -/
theorem holds_quantity_iff :
    (⟨name, [.float], none⟩ : Rule).Holds v ↔ ∃ q : Quantity, q.toValue = v := by
  rw [holds_iff]
  constructor
  · intro h
    cases v with
    | whole n => exact ⟨.whole n, rfl⟩
    | float x => exact ⟨.float x, rfl⟩
    | _ => cases h
  · rintro ⟨q, rfl⟩
    cases q <;> rfl

theorem holds_quantityOrAbsent_iff : (⟨name, [.float, .nothing], none⟩ : Rule).Holds v ↔
    ∃ q : Option Quantity, (q.map Quantity.toValue).getD .nothing = v := by
  rw [holds_iff]
  constructor
  · intro h
    cases v with
    | nothing => exact ⟨none, rfl⟩
    | whole n => exact ⟨some (.whole n), rfl⟩
    | float x => exact ⟨some (.float x), rfl⟩
    | _ => cases h
  · rintro ⟨_ | q, rfl⟩
    · rfl
    · cases q <;> rfl

/-- Where a whole number is asked for, a truth value does as well. -/
theorem holds_count_iff :
    (⟨name, [.whole], none⟩ : Rule).Holds v ↔ ∃ c : Count, c.toValue = v := by
  rw [holds_iff]
  constructor
  · intro h
    cases v with
    | whole n => exact ⟨.whole n, rfl⟩
    | truth b => exact ⟨.truth b, rfl⟩
    | _ => cases h
  · rintro ⟨c, rfl⟩
    cases c <;> rfl

theorem holds_countOrAbsent_iff : (⟨name, [.whole, .nothing], none⟩ : Rule).Holds v ↔
    ∃ c : Option Count, (c.map Count.toValue).getD .nothing = v := by
  rw [holds_iff]
  constructor
  · intro h
    cases v with
    | nothing => exact ⟨none, rfl⟩
    | whole n => exact ⟨some (.whole n), rfl⟩
    | truth b => exact ⟨some (.truth b), rfl⟩
    | _ => cases h
  · rintro ⟨_ | c, rfl⟩
    · rfl
    · cases c <;> rfl

theorem holds_truth_iff :
    (⟨name, [.truth], none⟩ : Rule).Holds v ↔ ∃ b, Value.truth b = v := by
  rw [holds_iff]
  constructor
  · intro h
    cases v with
    | truth b => exact ⟨b, rfl⟩
    | _ => cases h
  · rintro ⟨b, rfl⟩
    rfl

theorem holds_text_iff : (⟨name, [.text], none⟩ : Rule).Holds v ↔ ∃ s, Value.text s = v := by
  rw [holds_iff]
  constructor
  · intro h
    cases v with
    | text s => exact ⟨s, rfl⟩
    | _ => cases h
  · rintro ⟨s, rfl⟩
    rfl

theorem holds_choice_iff {β : Type} {choices : List β} {nameOf : β → String}
    (h : Table.TellsApart choices nameOf) :
    (⟨name, [.text], some (choices.map nameOf)⟩ : Rule).Holds v ↔
      ∃ c, Value.text (nameOf c) = v := by
  constructor
  · rintro ⟨hkind, hchoice⟩
    have hmem := hchoice _ rfl
    cases v with
    | text s =>
      by_cases hs : (choices.map nameOf).contains s = true
      · obtain ⟨c, -, rfl⟩ := List.mem_map.1 (List.contains_iff_mem.1 hs)
        exact ⟨c, rfl⟩
      · rw [Value.ofChoices, if_neg hs] at hmem
        cases hmem
    | _ => cases hkind
  · rintro ⟨c, rfl⟩
    refine ⟨rfl, ?_⟩
    intro names hnames
    cases hnames
    have hc : nameOf c ∈ choices.map nameOf := List.mem_map_of_mem (List.mem_of_find?_eq_some (h c))
    exact if_pos (List.contains_iff_mem.2 hc)

end Rule

/-! ## Schemas -/

/-- A kind of section: its rules, the values of its settings by their names, and how they
are changed. Settings are the tables that follow the rules. -/
structure Schema (α : Type) where
  rules : List Rule
  toTable : α → Table
  default : α
  changed : α → Table → Except Mismatch α
  exists_toTable_iff : ∀ f : String → Value,
    (∃ s, toTable s = rules.map fun r => (r.name, f r.name)) ↔ ∀ r ∈ rules, r.Holds (f r.name)
  nodup_names : (rules.map (·.name)).Nodup
  names_toTable : ∀ s, (toTable s).names = rules.map (·.name)
  changed_eq_ok_iff : ∀ s t s', changed s t = .ok s' ↔ toTable s' = (toTable s).overlaid t

namespace Schema
variable {α : Type} (S : Schema α)

def names : List String := S.rules.map (·.name)

def value? (s : α) (name : String) : Option Value := (S.toTable s).get? name

variable {S}

theorem exists_value? (s : α) {name : String} (h : name ∈ S.names) :
    ∃ v, S.value? s name = some v := by
  rw [← Option.ne_none_iff_exists', value?, Ne, Table.get?_eq_none_iff, S.names_toTable]
  exact not_not_intro h

/-- Every value of settings follows its rule. -/
theorem holds_value? (s : α) {r : Rule} (hr : r ∈ S.rules) {v : Value}
    (hv : S.value? s r.name = some v) : r.Holds v := by
  have htable := Table.eq_map_names (S.names_toTable s ▸ S.nodup_names)
  rw [S.names_toTable, List.map_map] at htable
  have hholds := (S.exists_toTable_iff fun name => (S.value? s name).getD .nothing).1 ⟨s, htable⟩
  have h := hholds r hr
  rwa [hv, Option.getD_some] at h

theorem get?_overlaid_toTable (s : α) (t : Table) {name : String} (h : name ∈ S.names) :
    ((S.toTable s).overlaid t).get? name = (t.get? name).or (S.value? s name) := by
  obtain ⟨v, hv⟩ := exists_value? s h
  rw [Table.get?_overlaid, hv]
  show (S.value? s name).map _ = _
  rw [hv]
  cases t.get? name <;> rfl

theorem names_overlaid_toTable (s : α) (t : Table) :
    ((S.toTable s).overlaid t).names = S.names := by
  rw [Table.names_overlaid, S.names_toTable]
  rfl

/-- Settings that are changed have the values of the table and otherwise their old ones. -/
theorem changed_iff {s s' : α} {t : Table} : S.changed s t = .ok s' ↔
    ∀ name ∈ S.names, S.value? s' name = (t.get? name).or (S.value? s name) := by
  rw [S.changed_eq_ok_iff]
  constructor
  · intro h name hname
    rw [value?, h, get?_overlaid_toTable s t hname]
  · intro h
    have hnames := names_overlaid_toTable (S := S) s t
    refine Table.eq_of_get?_eq (hnames ▸ S.nodup_names) ?_ ?_
    · rw [hnames, S.names_toTable]
      rfl
    · intro name hname
      rw [hnames] at hname
      rw [get?_overlaid_toTable s t hname, ← h name hname]
      rfl

/-- Settings can be changed if and only if the values of the table follow their rules. -/
theorem exists_changed_iff {s : α} {t : Table} : (∃ s', S.changed s t = .ok s') ↔
    ∀ r ∈ S.rules, ∀ v, t.get? r.name = some v → r.Holds v := by
  have hnodup : S.names.Nodup := S.nodup_names
  have htable := Table.eq_map_names ((names_overlaid_toTable s t).symm ▸ hnodup)
  rw [names_overlaid_toTable, names, List.map_map] at htable
  simp only [S.changed_eq_ok_iff]
  rw [htable]
  refine (S.exists_toTable_iff fun name =>
    (((S.toTable s).overlaid t).get? name).getD .nothing).trans ?_
  apply forall₂_congr
  intro r hr
  rw [get?_overlaid_toTable s t (List.mem_map_of_mem hr)]
  obtain ⟨v, hv⟩ := exists_value? s (List.mem_map_of_mem hr)
  rw [hv]
  cases t.get? r.name with
  | none => exact iff_of_true (holds_value? s hr hv) fun w hw => by cases hw
  | some w =>
    constructor
    · intro h w' hw
      cases hw
      exact h
    · exact fun h => h w rfl

variable (S)

/-- What a table is read as; names that no setting has are refused. -/
def ofTable? (t : Table) : Except SectionFault α := t.read S.names (S.changed S.default t)

/-- Every name of a table is that of a setting, and every value follows its rule. -/
structure Admits (t : Table) : Prop where
  known : ∀ name ∈ t.names, name ∈ S.names
  holds : ∀ r ∈ S.rules, ∀ v, t.get? r.name = some v → r.Holds v

variable {S}

theorem ofTable?_eq_ok_iff {t : Table} {s : α} : S.ofTable? t = .ok s ↔
    (∀ name ∈ t.names, name ∈ S.names) ∧ S.changed S.default t = .ok s := by
  have hunknown : t.unknown? S.names = none ↔ ∀ name ∈ t.names, name ∈ S.names := by
    simp [Table.unknown?]
  rw [← hunknown, ofTable?, Table.read]
  cases t.unknown? S.names with
  | none => exact (mapError_eq_ok_iff).trans (and_iff_right rfl).symm
  | some name =>
    constructor
    · intro h
      cases h
    · intro h
      cases h.1

/-- A table is accepted if and only if its names are known and its values follow their
rules. -/
theorem exists_ofTable?_iff {t : Table} : (∃ s, S.ofTable? t = .ok s) ↔ S.Admits t := by
  simp only [ofTable?_eq_ok_iff, exists_and_left, exists_changed_iff]
  exact ⟨fun h => ⟨h.1, h.2⟩, fun h => ⟨h.known, h.holds⟩⟩

end Schema

namespace SearchSettings

def rules : List Rule :=
  [⟨"detection_n_sigma", [.float], none⟩,
    ⟨"analysis_n_sigma", [.float], none⟩,
    ⟨"rms_estimate", [.float, .nothing], none⟩,
    ⟨"find_negative_sources", [.truth], none⟩,
    ⟨"sigma_clip_iters", [.whole], none⟩,
    ⟨"clip_n_sigma", [.float], none⟩,
    ⟨"median_method", [.text], some (Median.Method.all.map Median.Method.name)⟩,
    ⟨"binapprox_bins", [.whole], none⟩,
    ⟨"compute_barycentre", [.truth], none⟩,
    ⟨"gaussian_fitting", [.truth], none⟩,
    ⟨"connectivity", [.whole], none⟩,
    ⟨"generate_labelmap", [.truth], none⟩,
    ⟨"source_min_area", [.whole], none⟩,
    ⟨"diff_method", [.text], some (Differencing.all.map Differencing.name)⟩,
    ⟨"solver_type", [.text], some (Solver.all.map Solver.name)⟩,
    ⟨"fit_margin", [.whole], none⟩,
    ⟨"max_iterations", [.whole], none⟩,
    ⟨"nr_threads", [.whole, .nothing], none⟩,
    ⟨"debug", [.truth], none⟩]

theorem exists_toTable_iff (f : String → Value) :
    (∃ s : SearchSettings, s.toTable = rules.map fun r => (r.name, f r.name)) ↔
      ∀ r ∈ rules, r.Holds (f r.name) := by
  simp only [rules, List.map_cons, List.map_nil, List.forall_mem_cons, Rule.holds_quantity_iff,
    Rule.holds_quantityOrAbsent_iff, Rule.holds_count_iff, Rule.holds_countOrAbsent_iff,
    Rule.holds_truth_iff, Rule.holds_choice_iff Table.tellsApart_median,
    Rule.holds_choice_iff Table.tellsApart_differencing,
    Rule.holds_choice_iff Table.tellsApart_solver, toTable, List.cons.injEq, Prod.mk.injEq,
    true_and, and_true]
  -- one condition for each setting, in the order of the rules
  constructor
  · rintro ⟨s, h1, h2, h3, h4, h5, h6, h7, h8, h9, h10, h11, h12, h13, h14, h15, h16, h17, h18, h19⟩
    exact ⟨⟨_, h1⟩, ⟨_, h2⟩, ⟨_, h3⟩, ⟨_, h4⟩, ⟨_, h5⟩, ⟨_, h6⟩, ⟨_, h7⟩, ⟨_, h8⟩, ⟨_, h9⟩,
      ⟨_, h10⟩, ⟨_, h11⟩, ⟨_, h12⟩, ⟨_, h13⟩, ⟨_, h14⟩, ⟨_, h15⟩, ⟨_, h16⟩, ⟨_, h17⟩, ⟨_, h18⟩,
      ⟨_, h19⟩, List.forall_mem_nil _⟩
  · rintro ⟨⟨detection, h1⟩, ⟨analysis, h2⟩, ⟨rms, h3⟩, ⟨negatives, h4⟩, ⟨clipRounds, h5⟩,
      ⟨clipLimit, h6⟩, ⟨median, h7⟩, ⟨bins, h8⟩, ⟨barycentre, h9⟩, ⟨fitting, h10⟩,
      ⟨connectivity, h11⟩, ⟨labelMap, h12⟩, ⟨minArea, h13⟩, ⟨differencing, h14⟩, ⟨solver, h15⟩,
      ⟨margin, h16⟩, ⟨rounds, h17⟩, ⟨workers, h18⟩, ⟨debug, h19⟩, -⟩
    exact ⟨⟨detection, analysis, rms, negatives, clipRounds, clipLimit, median, bins, barycentre,
      fitting, connectivity, labelMap, minArea, differencing, solver, margin, rounds, workers,
      debug⟩, h1, h2, h3, h4, h5, h6, h7, h8, h9, h10, h11, h12, h13, h14, h15, h16, h17, h18, h19⟩

theorem changed_eq_ok_iff (s : SearchSettings) (t : Table) (s' : SearchSettings) :
    s.changed t = .ok s' ↔ s'.toTable = s.toTable.overlaid t := by
  simp only [changed, bind_eq_ok_iff, Table.quantity_eq_ok_iff, Table.quantityOrAbsent_eq_ok_iff,
    Table.count_eq_ok_iff, Table.countOrAbsent_eq_ok_iff, Table.truth_eq_ok_iff,
    Table.text_eq_ok_iff, Table.choose_eq_ok_iff Table.tellsApart_median,
    Table.choose_eq_ok_iff Table.tellsApart_differencing,
    Table.choose_eq_ok_iff Table.tellsApart_solver, toTable, Table.overlaid, List.map_cons,
    List.map_nil, List.cons.injEq, Prod.mk.injEq, true_and, and_true, pure, Except.pure,
    Except.ok.injEq]
  -- texts that are choices are read first and chosen behind all others
  constructor
  · rintro ⟨detection, h1, analysis, h2, rms, h3, negatives, h4, clipRounds, h5, clipLimit, h6, _,
      h7, bins, h8, barycentre, h9, fitting, h10, connectivity, h11, labelMap, h12, minArea, h13,
      _, h14, _, h15, margin, h16, rounds, h17, workers, h18, debug, h19, median, rfl,
      differencing, rfl, solver, rfl, rfl⟩
    exact ⟨h1, h2, h3, h4, h5, h6, h7, h8, h9, h10, h11, h12, h13, h14, h15, h16, h17, h18, h19⟩
  · rintro ⟨h1, h2, h3, h4, h5, h6, h7, h8, h9, h10, h11, h12, h13, h14, h15, h16, h17, h18, h19⟩
    exact ⟨_, h1, _, h2, _, h3, _, h4, _, h5, _, h6, _, h7, _, h8, _, h9, _, h10, _, h11, _, h12, _,
      h13, _, h14, _, h15, _, h16, _, h17, _, h18, _, h19, _, rfl, _, rfl, _, rfl, rfl⟩

def schema : Schema SearchSettings where
  rules := rules
  toTable := toTable
  default := {}
  changed := changed
  exists_toTable_iff := exists_toTable_iff
  nodup_names := by decide
  names_toTable _ := rfl
  changed_eq_ok_iff := changed_eq_ok_iff

end SearchSettings

namespace ExportSettings

def rules : List Rule :=
  [⟨"output_dir", [.text], none⟩,
    ⟨"labelmap", [.truth], none⟩,
    ⟨"residuals", [.truth], none⟩,
    ⟨"csv", [.truth], none⟩]

theorem exists_toTable_iff (f : String → Value) :
    (∃ s : ExportSettings, s.toTable = rules.map fun r => (r.name, f r.name)) ↔
      ∀ r ∈ rules, r.Holds (f r.name) := by
  simp only [rules, List.map_cons, List.map_nil, List.forall_mem_cons, Rule.holds_truth_iff,
    Rule.holds_text_iff, toTable, List.cons.injEq, Prod.mk.injEq, true_and, and_true]
  constructor
  · rintro ⟨s, h1, h2, h3, h4⟩
    exact ⟨⟨_, h1⟩, ⟨_, h2⟩, ⟨_, h3⟩, ⟨_, h4⟩, List.forall_mem_nil _⟩
  · rintro ⟨⟨directory, h1⟩, ⟨labelMap, h2⟩, ⟨residuals, h3⟩, ⟨catalogue, h4⟩, -⟩
    exact ⟨⟨directory, labelMap, residuals, catalogue⟩, h1, h2, h3, h4⟩

theorem changed_eq_ok_iff (s : ExportSettings) (t : Table) (s' : ExportSettings) :
    s.changed t = .ok s' ↔ s'.toTable = s.toTable.overlaid t := by
  simp only [changed, bind_eq_ok_iff, Table.truth_eq_ok_iff, Table.text_eq_ok_iff, toTable,
    Table.overlaid, List.map_cons, List.map_nil, List.cons.injEq, Prod.mk.injEq, true_and,
    and_true, pure, Except.pure, Except.ok.injEq]
  constructor
  · rintro ⟨directory, h1, labelMap, h2, residuals, h3, catalogue, h4, rfl⟩
    exact ⟨h1, h2, h3, h4⟩
  · rintro ⟨h1, h2, h3, h4⟩
    exact ⟨_, h1, _, h2, _, h3, _, h4, rfl⟩

def schema : Schema ExportSettings where
  rules := rules
  toTable := toTable
  default := {}
  changed := changed
  exists_toTable_iff := exists_toTable_iff
  nodup_names := by decide
  names_toTable _ := rfl
  changed_eq_ok_iff := changed_eq_ok_iff

end ExportSettings
end SkySources
