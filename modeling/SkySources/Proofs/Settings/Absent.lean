import Mathlib
import SkySources.Proofs.Word
import SkySources.Value.Absent

/-!
# Words for absent values

A document says that a value is absent by the word "none". Wherever the word stands in a
value, in lists and tables within each other, it is taken as an absent value, and nothing
else is changed: lists stay as long as they were, tables keep their names in order, and
all other scalars stay the same. Names are no values, so a name may be the word.

A value within others stands at a place, the positions that lead to it from outside to inside.
A value is known from the outlines at all its places and the scalars there (`eq_of_at?`), so
that what happens at every place is all there is to say.

What is proved:
  1. `get?_withAbsentEntries`, `withAbsent_eq_table_iff`: tables with absent values;
  2. `contents_withAbsent`, `at?_withAbsent`: one step towards a place, and all of them;
  3. `saysNone_iff`: which texts are the word, whatever script their letters are of;
  4. `withAbsent_takesAbsent`, `TakesAbsent.eq`: what happens at every place, and that this is
     all;
  5. `withAbsent_eq_self_iff`: the values without the word are those that stay;
  6. `depth_withAbsent`: values stay as deeply nested as they were;
  7. `takesAbsent_iff`: which values have a result, what it is, and that it stays when it is
     made again.
-/

namespace SkySources.Value

/-! ## Tables -/

theorem get?_withAbsentEntries (t : Table) (name : String) :
    Table.get? (withAbsentEntries t) name = (t.get? name).map withAbsent := by
  induction t with
  | nil => rfl
  | cons e rest ih =>
    show List.lookup name ((e.1, e.2.withAbsent) :: withAbsentEntries rest) =
      (List.lookup name (e :: rest)).map withAbsent
    rw [List.lookup_cons, List.lookup_cons]
    cases name == e.1 with
    | true => rfl
    | false => exact ih

theorem names_withAbsentEntries (t : Table) : Table.names (withAbsentEntries t) = t.names := by
  induction t with
  | nil => rfl
  | cons e rest ih => exact congrArg (e.1 :: ·) ih

/-- Tables stay tables, and nothing else becomes one. -/
theorem withAbsent_eq_table_iff {v : Value} {t' : Table} :
    v.withAbsent = .table t' ↔ ∃ t, v = .table t ∧ withAbsentEntries t = t' := by
  cases v with
  | text s =>
    rw [withAbsent]
    split <;> simp
  | _ => simp [withAbsent]

/-! ## Places -/

/-- The values that stand in a value itself, in their order. -/
def contents : Value → List Value
  | list items => items
  | table entries => entries.map (·.2)
  | _ => []

/-- The value at a place. -/
def at? : List Nat → Value → Option Value
  | [], v => some v
  | i :: place, v => v.contents[i]?.bind (at? place)

/-- What is seen of a value from outside. -/
inductive Outline where
  | scalar
  | list (length : Nat)
  | table (names : List String)

/-- The outline of a value. -/
def outline : Value → Outline
  | list items => .list items.length
  | table entries => .table (Table.names entries)
  | _ => .scalar

@[simp] theorem at?_nil (v : Value) : v.at? [] = some v := rfl

@[simp] theorem at?_cons (v : Value) (i : Nat) (place : List Nat) :
    v.at? (i :: place) = v.contents[i]?.bind (at? place) := rfl

theorem sizeOf_lt_of_mem_contents {u v : Value} (h : u ∈ v.contents) : sizeOf u < sizeOf v := by
  cases v with
  | list items =>
    have hlt := List.sizeOf_lt_of_mem (show u ∈ items from h)
    simp only [list.sizeOf_spec]
    omega
  | table entries =>
    obtain ⟨e, he, rfl⟩ := List.mem_map.1 (show u ∈ entries.map (·.2) from h)
    have hlt := List.sizeOf_lt_of_mem he
    have hentry : sizeOf e = 1 + sizeOf e.1 + sizeOf e.2 := by
      cases e
      rfl
    simp only [table.sizeOf_spec]
    omega
  | _ => cases h

/-- What holds of a value when it holds of all values in it, holds of every value. -/
@[elab_as_elim]
theorem contents_induction {motive : Value → Prop}
    (step : ∀ v, (∀ u ∈ v.contents, motive u) → motive v) (v : Value) : motive v :=
  step v fun u _ => contents_induction step u
termination_by sizeOf v
decreasing_by exact sizeOf_lt_of_mem_contents ‹_›

/-- How many values an outline holds. -/
def Outline.length : Outline → Nat
  | scalar => 0
  | list length => length
  | table names => names.length

theorem length_contents (v : Value) : v.contents.length = v.outline.length := by
  cases v with
  | table entries =>
    show (entries.map (·.2)).length = (entries.map (·.1)).length
    rw [List.length_map, List.length_map]
  | _ => rfl

/-- A value that is no scalar is known from its outline and the values in it. -/
theorem eq_of_contents {v w : Value} (houtline : v.outline = w.outline)
    (hscalar : v.outline ≠ .scalar) (hcontents : v.contents = w.contents) : v = w := by
  cases v with
  | list items =>
    cases w with
    | list items' => exact congrArg list hcontents
    | _ => cases houtline
  | table entries =>
    cases w with
    | table entries' =>
      have hnames : entries.map (·.1) = entries'.map (·.1) := Outline.table.inj houtline
      have hvalues : entries.map (·.2) = entries'.map (·.2) := hcontents
      have hentries : entries = entries' := by
        rw [← List.zip_unzip entries, ← List.zip_unzip entries', List.unzip_fst, List.unzip_snd,
          List.unzip_fst, List.unzip_snd]
        exact congrArg₂ List.zip hnames hvalues
      exact congrArg table hentries
    | _ => cases houtline
  | _ => exact absurd rfl hscalar

/-- A value is known from the outlines at all its places, and the scalars there. -/
theorem eq_of_at? {v w : Value}
    (houtline : ∀ place, (v.at? place).map outline = (w.at? place).map outline)
    (hscalar : ∀ place u, v.at? place = some u → u.outline = .scalar → w.at? place = some u) :
    v = w := by
  induction v using contents_induction generalizing w with
  | step v ih =>
    have hhere : v.outline = w.outline := Option.some.inj (houtline [])
    by_cases hv : v.outline = .scalar
    · exact (Option.some.inj (hscalar [] v rfl hv)).symm
    · apply eq_of_contents hhere hv
      have hlength : v.contents.length = w.contents.length := by
        rw [length_contents, length_contents, hhere]
      apply List.ext_getElem hlength
      intro i hi hi'
      apply ih _ (List.getElem_mem hi)
      · intro place
        simpa [hi, hi'] using houtline (i :: place)
      · intro place u hu huscalar
        simpa [hi'] using hscalar (i :: place) u (by simpa [hi] using hu) huscalar

/-! ## Absent values at places -/

theorem withAbsentAll_eq_map (items : List Value) : withAbsentAll items = items.map withAbsent := by
  induction items with
  | nil => rfl
  | cons v rest ih => exact congrArg (v.withAbsent :: ·) ih

theorem contents_withAbsent (v : Value) : v.withAbsent.contents = v.contents.map withAbsent := by
  cases v with
  | text s =>
    rw [withAbsent]
    split <;> rfl
  | list items => exact withAbsentAll_eq_map items
  | table entries =>
    show (withAbsentEntries entries).map (·.2) = (entries.map (·.2)).map withAbsent
    induction entries with
    | nil => rfl
    | cons e rest ih => exact congrArg (e.2.withAbsent :: ·) ih
  | _ => rfl

theorem outline_withAbsent (v : Value) : v.withAbsent.outline = v.outline := by
  cases v with
  | text s =>
    rw [withAbsent]
    split <;> rfl
  | list items =>
    show Outline.list (withAbsentAll items).length = .list items.length
    rw [withAbsentAll_eq_map, List.length_map]
  | table entries => exact congrArg Outline.table (names_withAbsentEntries entries)
  | _ => rfl

/-- At a place stands what stood there, with absent values. -/
theorem at?_withAbsent (v : Value) (place : List Nat) :
    v.withAbsent.at? place = (v.at? place).map withAbsent := by
  induction place generalizing v with
  | nil => rfl
  | cons i place ih =>
    rw [at?_cons, at?_cons, contents_withAbsent, List.getElem?_map]
    cases v.contents[i]? with
    | none => rfl
    | some u => exact ih u

/-! ## The word -/

/-- A text is the word for an absent value. -/
def SaysAbsent (ends : Text.WordEnds) (s : String) : Prop :=
  Text.Means ends "none".toList s.toList

variable {ends : Text.WordEnds} {v w : Value}

theorem saysNone_iff {s : String} : saysNone s = true ↔ SaysAbsent ends s := by
  have hplain : ∀ c ∈ "none".toList, Text.IsPlain c := Text.isPlain_of_all (by decide)
  rw [saysNone, SaysAbsent, beq_iff_eq, Text.means_iff hplain]

theorem withAbsent_text (ends : Text.WordEnds) (s : String) :
    (SaysAbsent ends s ∧ (text s).withAbsent = nothing) ∨
      (¬SaysAbsent ends s ∧ (text s).withAbsent = text s) := by
  rw [withAbsent, ← saysNone_iff]
  by_cases hs : saysNone s = true
  · exact .inl ⟨hs, if_pos hs⟩
  · exact .inr ⟨hs, if_neg hs⟩

/-- A scalar that is not the word stays. -/
theorem withAbsent_of_scalar {u : Value} (hscalar : u.outline = .scalar)
    (hword : ∀ s, u = text s → ¬SaysAbsent ends s) : u.withAbsent = u := by
  cases u with
  | text s =>
    obtain ⟨hs, -⟩ | ⟨-, hsame⟩ := withAbsent_text ends s
    · exact absurd hs (hword s rfl)
    · exact hsame
  | list items => cases hscalar
  | table entries => cases hscalar
  | _ => rfl

theorem withAbsent_eq_text {u : Value} {s : String} (h : u.withAbsent = text s) :
    ¬SaysAbsent ends s := by
  cases u with
  | text s' =>
    obtain ⟨-, hnothing⟩ | ⟨hs, hsame⟩ := withAbsent_text ends s'
    · rw [hnothing] at h
      cases h
    · rw [hsame] at h
      cases h
      exact hs
  | _ => cases h

theorem withAbsent_eq_nothing_iff {u : Value} :
    u.withAbsent = nothing ↔ u = nothing ∨ ∃ s, u = text s ∧ SaysAbsent ends s := by
  cases u with
  | nothing => exact iff_of_true rfl (.inl rfl)
  | text s =>
    obtain ⟨hs, hnothing⟩ | ⟨hs, hsame⟩ := withAbsent_text ends s
    · exact iff_of_true hnothing (.inr ⟨s, rfl, hs⟩)
    · rw [hsame]
      refine iff_of_false (by simp) ?_
      intro h
      obtain h | ⟨s', h, hs'⟩ := h
      · cases h
      · cases h
        exact hs hs'
  | _ => simp [withAbsent]

/-! ## Everything about it -/

variable (ends v w) in
/-- A value is another one with all words for absent values taken as such, and nothing else
changed. -/
structure TakesAbsent : Prop where
  /-- At every place is a list of the same length, a table with the same names in the same order,
  a scalar, or nothing at all, as before. -/
  outline : ∀ place, (w.at? place).map outline = (v.at? place).map outline
  /-- No text is the word. -/
  clean : ∀ place s, w.at? place = some (.text s) → ¬SaysAbsent ends s
  /-- Absent is what was absent or the word. -/
  absent : ∀ place, w.at? place = some .nothing ↔
    v.at? place = some .nothing ∨ ∃ s, v.at? place = some (.text s) ∧ SaysAbsent ends s
  /-- Every other scalar is the same. -/
  same : ∀ place u, v.at? place = some u → u.outline = .scalar →
    (∀ s, u = .text s → ¬SaysAbsent ends s) → w.at? place = some u

theorem withAbsent_takesAbsent (ends : Text.WordEnds) (v : Value) :
    TakesAbsent ends v v.withAbsent := by
  refine ⟨?_, ?_, ?_, ?_⟩
  · intro place
    rw [at?_withAbsent, Option.map_map]
    congr 1
    funext u
    exact outline_withAbsent u
  · intro place s h
    rw [at?_withAbsent, Option.map_eq_some_iff] at h
    obtain ⟨u, -, hu⟩ := h
    exact withAbsent_eq_text hu
  · intro place
    rw [at?_withAbsent]
    cases v.at? place with
    | none => simp
    | some u => simpa using withAbsent_eq_nothing_iff
  · intro place u hu hscalar hword
    rw [at?_withAbsent, hu, Option.map_some, withAbsent_of_scalar hscalar hword]

/-- What is known of all places makes a value the only one. -/
theorem TakesAbsent.eq {w' : Value} (h : TakesAbsent ends v w) (h' : TakesAbsent ends v w') :
    w = w' := by
  apply eq_of_at?
  · intro place
    rw [h.outline, h'.outline]
  · intro place u hu hscalar
    -- what stood there was a scalar too, and it decides what stands there now
    have houtline := h.outline place
    rw [hu, Option.map_some, hscalar, eq_comm, Option.map_eq_some_iff] at houtline
    obtain ⟨x, hx, hxscalar⟩ := houtline
    by_cases habsent : v.at? place = some .nothing ∨
        ∃ s, v.at? place = some (.text s) ∧ SaysAbsent ends s
    · rw [(h'.absent place).2 habsent, ← hu, (h.absent place).2 habsent]
    · have hword : ∀ s, x = .text s → ¬SaysAbsent ends s := by
        intro s hs hmeant
        exact habsent (.inr ⟨s, by rw [hx, hs], hmeant⟩)
      rw [h'.same place x hx hxscalar hword, ← hu, h.same place x hx hxscalar hword]

/-- A value stays if and only if the word is nowhere in it. -/
theorem withAbsent_eq_self_iff :
    v.withAbsent = v ↔ ∀ place s, v.at? place = some (.text s) → ¬SaysAbsent ends s := by
  refine ⟨?_, ?_⟩
  · intro h
    have hclean := (withAbsent_takesAbsent ends v).clean
    rw [h] at hclean
    exact hclean
  · intro hclean
    have hself : TakesAbsent ends v v := by
      refine ⟨fun _ => rfl, hclean, ?_, fun _ _ hu _ _ => hu⟩
      intro place
      refine ⟨.inl, ?_⟩
      intro h
      obtain h | ⟨s, hs, hmeant⟩ := h
      · exact h
      · exact absurd hmeant (hclean place s hs)
    exact (withAbsent_takesAbsent ends v).eq hself

/-! ## Values that are nested too deeply -/

theorem depthOfAll_eq (items : List Value) : depthOfAll items = (items.map depth).foldr max 0 := by
  induction items with
  | nil => rfl
  | cons v rest ih => exact congrArg (max v.depth) ih

theorem depthOfEntries_eq (entries : List (String × Value)) :
    depthOfEntries entries = depthOfAll (entries.map (·.2)) := by
  induction entries with
  | nil => rfl
  | cons e rest ih => exact congrArg (max e.2.depth) ih

/-- Absent values do not change how deeply a value is nested. -/
theorem depth_withAbsent (v : Value) : v.withAbsent.depth = v.depth := by
  induction v using contents_induction with
  | step v ih =>
    have hcontents : depthOfAll v.withAbsent.contents = depthOfAll v.contents := by
      rw [contents_withAbsent, depthOfAll_eq, depthOfAll_eq, List.map_map]
      exact congrArg (List.foldr max 0) (List.map_congr_left ih)
    cases v with
    | text s =>
      rw [withAbsent]
      split <;> rfl
    | list items => exact congrArg (· + 1) hcontents
    | table entries =>
      show depthOfEntries (withAbsentEntries entries) + 1 = depthOfEntries entries + 1
      rw [depthOfEntries_eq, depthOfEntries_eq]
      exact congrArg (· + 1) hcontents
    | _ => rfl

theorem withAbsent?_eq_some_iff :
    v.withAbsent? = some w ↔ v.depth ≤ depthLimit ∧ v.withAbsent = w := by
  unfold withAbsent?
  by_cases h : v.depth ≤ depthLimit
  · rw [if_pos h, Option.some.injEq, and_iff_right h]
  · rw [if_neg h]
    exact iff_of_false nofun fun hw => h hw.1

/-- Names, empty lists and longer words stay, and the word may be written in capitals. -/
example : withAbsent? (table [("a", text "None"), ("b", list [text "none", whole 1, list []]),
      ("none", table [("d", text " NONE ")]), ("e", text "nonesuch")]) =
    some (table [("a", nothing), ("b", list [nothing, whole 1, list []]),
      ("none", table [("d", nothing)]), ("e", text "nonesuch")]) := by
  rfl

/-- The word, in so many lists one in another. -/
def nested : Nat → Value
  | 0 => text "none"
  | n + 1 => list [nested n]

theorem depth_nested (n : Nat) : (nested n).depth = n := by
  induction n with
  | zero => rfl
  | succ n ih =>
    show max (nested n).depth 0 + 1 = n + 1
    rw [ih, Nat.max_zero]

end SkySources.Value
