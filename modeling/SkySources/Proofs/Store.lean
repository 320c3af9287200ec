import Mathlib
import SkySources.Store

/-!
# What a store keeps

Two things happen to a store: directories are made where there was nothing, and files
are written where no directory was. Making directories loses nothing (`Grows`). Writing
changes what stands at some places, and never what is a directory (`Rewrites`), so every
path that led somewhere still leads there.

What is proved:
  1. `item?_put`: what stands at a place of a store with one more item;
  2. `makeDirectories_grows`, `Grows.read`: directories are made, and all can be read
     that could be read;
  3. `write_rewrites`, `Rewrites.read_iff`: a file is written, and all else can be read as
     before;
  4. `read_of_write`: what is written is read;
  5. `locate_child_inj`: paths of two names in one directory lead to two places.
-/

namespace SkySources.Store
variable {s t u : Store} {p : Path} {place q : List String} {item : Item} {W V : List String → Prop}

/-! ## Items -/

theorem lookup_filter_ne (items : List (List String × Item)) (h : q ≠ place) :
    (items.filter fun entry => entry.1 ≠ place).lookup q = items.lookup q := by
  induction items with
  | nil => rfl
  | cons entry items ih =>
    by_cases he : entry.1 = place
    · have hq : (q == entry.1) = false := beq_false_of_ne (he ▸ h)
      rw [List.filter_cons_of_neg (by simpa using he), ih, List.lookup_cons, hq]
    · rw [List.filter_cons_of_pos (by simpa using he), List.lookup_cons, List.lookup_cons, ih]

theorem lookup_filter_self (items : List (List String × Item)) :
    (items.filter fun entry => entry.1 ≠ place).lookup place = none := by
  rw [List.lookup_eq_none_iff]
  intro entry he
  have hne : entry.1 ≠ place := by simpa using List.of_mem_filter he
  exact bne_iff_ne.2 hne.symm

/-- What stands at a place of a store with one more item. -/
theorem item?_put (s : Store) (place : List String) (item : Item) (q : List String) :
    (s.put place item).item? q =
      if isGiven q then some .directory else if q = place then some item else s.item? q := by
  unfold item? put
  split
  · rfl
  · rw [List.lookup_append]
    split
    · next h => rw [h, lookup_filter_self, List.lookup_cons_self]; rfl
    · next h => rw [lookup_filter_ne _ h, List.lookup_cons, beq_false_of_ne h]; simp

/-! ## Paths -/

theorem locate_eq_ok_iff : s.locate p = .ok q ↔
    p.isBroken = false ∧ p.size < Path.sizeLimit ∧ s.walk p.parts p.start = .ok q := by
  unfold locate
  split
  · next h => simp [h]
  · next h =>
    split
    · next h' => simp [Nat.not_lt.2 h']
    · next h' => simp [h, Nat.not_le.1 h']

theorem read_eq_ok_iff : s.read p = .ok item ↔ ∃ q, s.locate p = .ok q ∧ s.item? q = some item := by
  unfold read
  cases s.locate p with
  | error e => simp [bind, Except.bind]
  | ok q =>
    simp only [bind, Except.bind, Except.ok.injEq, exists_eq_left']
    cases s.item? q <;> simp [pure, Except.pure]

/-- A text is read as itself. -/
theorem readText_of_read {name text : String}
    (h : s.read (Path.ofText name).clean = .ok (.text text)) : s.readText name = .ok text := by
  have hbytes : ((Item.text text).toBytes?.bind fun bytes => String.fromUTF8? bytes) = some text :=
    dif_pos text.isValidUTF8
  unfold readText
  rw [h]
  simp only [bind, Except.bind]
  rw [hbytes]
  rfl

theorem write_eq_ok_iff : s.write p item = .ok t ↔
    ∃ q, s.locate p = .ok q ∧ s.item? q ≠ some .directory ∧ t = s.put q item := by
  unfold write
  cases s.locate p with
  | error e => simp [bind, Except.bind]
  | ok q =>
    simp only [bind, Except.bind, Except.ok.injEq, exists_eq_left']
    split
    · next h => simp [h]
    · next h => simpa [pure, Except.pure, eq_comm] using fun _ => h

/-- A walk goes on where it can, so long as the directories on the way stay. -/
theorem walk_of_directories (h : ∀ q, s.item? q = some .directory → t.item? q = some .directory)
    {parts : List String} (hw : s.walk parts place = .ok q) : t.walk parts place = .ok q := by
  induction parts generalizing place with
  | nil => exact hw
  | cons part parts ih =>
    rw [walk] at hw ⊢
    cases hi : s.item? place with
    | none => rw [hi] at hw; cases hw
    | some item =>
      rw [hi] at hw
      cases item with
      | directory =>
        rw [h place hi]
        simp only at hw ⊢
        split_ifs at hw ⊢
        · exact ih hw
        · exact ih hw
        · exact ih hw
      | _ => cases hw

theorem locate_of_directories
    (h : ∀ q, s.item? q = some .directory → t.item? q = some .directory)
    (hl : s.locate p = .ok q) : t.locate p = .ok q := by
  obtain ⟨hb, hsize, hw⟩ := locate_eq_ok_iff.1 hl
  exact locate_eq_ok_iff.2 ⟨hb, hsize, walk_of_directories h hw⟩

/-! ## Directories that are made -/

/-- Everything is still there. -/
def Grows (s t : Store) : Prop := ∀ q item, s.item? q = some item → t.item? q = some item

namespace Grows

theorem refl (s : Store) : Grows s s := fun _ _ h => h

theorem trans (h : Grows s t) (h' : Grows t u) : Grows s u :=
  fun q item hi => h' q item (h q item hi)

theorem locate (h : Grows s t) (hl : s.locate p = .ok q) : t.locate p = .ok q :=
  locate_of_directories (fun q => h q .directory) hl

theorem read (h : Grows s t) (hr : s.read p = .ok item) : t.read p = .ok item := by
  obtain ⟨q, hq, hi⟩ := read_eq_ok_iff.1 hr
  exact read_eq_ok_iff.2 ⟨q, h.locate hq, h q item hi⟩

end Grows

theorem makeDirectory_grows (h : s.makeDirectory p = .ok t) : Grows s t := by
  unfold makeDirectory at h
  cases hl : s.locate p with
  | error e => rw [hl] at h; cases h
  | ok place =>
    rw [hl] at h
    simp only [bind, Except.bind] at h
    cases hi : s.item? place with
    | none =>
      rw [hi] at h
      cases h
      intro q item hq
      rw [item?_put]
      split
      · next hgiven => rw [← hq, item?, if_pos hgiven]
      · split
        · next he =>
          rw [he, hi] at hq
          cases hq
        · exact hq
    | some item =>
      rw [hi] at h
      cases item with
      | directory => cases h; exact .refl s
      | _ => cases h

theorem makeDirectoriesTo_grows {fromRoot : Bool} {parts : List String}
    (h : makeDirectoriesTo fromRoot parts s = .ok t) : Grows s t := by
  induction parts generalizing t with
  | nil => cases h; exact .refl s
  | cons part parts ih =>
    rw [makeDirectoriesTo] at h
    cases hm : s.makeDirectory ⟨fromRoot, parts.reverse ++ [part]⟩ with
    | ok u =>
      rw [hm] at h
      cases h
      exact makeDirectory_grows hm
    | error e =>
      rw [hm] at h
      cases e with
      | missing =>
        simp only at h
        -- the directories above are made first
        cases hu : makeDirectoriesTo fromRoot parts s with
        | error e => rw [hu] at h; cases h
        | ok u =>
          rw [hu] at h
          exact (ih hu).trans (makeDirectory_grows h)
      | _ => cases h

theorem makeDirectories_grows (h : s.makeDirectories p = .ok t) : Grows s t :=
  makeDirectoriesTo_grows h

/-! ## Files that are written -/

/-- What stands at some places has changed, but no directory has come or gone. -/
structure Rewrites (W : List String → Prop) (s t : Store) : Prop where
  directory : ∀ q, t.item? q = some .directory ↔ s.item? q = some .directory
  kept : ∀ q, ¬W q → t.item? q = s.item? q

namespace Rewrites

theorem refl (W : List String → Prop) (s : Store) : Rewrites W s s :=
  ⟨fun _ => Iff.rfl, fun _ _ => rfl⟩

theorem trans (h : Rewrites W s t) (h' : Rewrites V t u) : Rewrites (fun q => W q ∨ V q) s u where
  directory q := (h'.directory q).trans (h.directory q)
  kept q hq := (h'.kept q (not_or.1 hq).2).trans (h.kept q (not_or.1 hq).1)

theorem mono (h : Rewrites W s t) (hWV : ∀ q, W q → V q) : Rewrites V s t where
  directory := h.directory
  kept q hq := h.kept q (mt (hWV q) hq)

theorem locate_iff (h : Rewrites W s t) : t.locate p = .ok q ↔ s.locate p = .ok q :=
  ⟨locate_of_directories fun q => (h.directory q).1,
    locate_of_directories fun q => (h.directory q).2⟩

/-- What is not at one of the places can be read as before. -/
theorem read_iff (h : Rewrites W s t) (hp : ∀ q, s.locate p = .ok q → ¬W q) :
    t.read p = .ok item ↔ s.read p = .ok item := by
  simp only [read_eq_ok_iff, h.locate_iff]
  constructor
  · rintro ⟨q, hq, hi⟩
    exact ⟨q, hq, h.kept q (hp q hq) ▸ hi⟩
  · rintro ⟨q, hq, hi⟩
    exact ⟨q, hq, (h.kept q (hp q hq)).trans hi⟩

end Rewrites

/-- A file is written at one place. -/
theorem write_rewrites (h : s.write p item = .ok t) (hitem : item ≠ .directory) :
    Rewrites (fun q => s.locate p = .ok q) s t := by
  obtain ⟨place, hl, hplace, rfl⟩ := write_eq_ok_iff.1 h
  constructor
  · intro q
    rw [item?_put]
    split
    · next hgiven => simp [item?, hgiven]
    · split
      · next he =>
        subst he
        exact iff_of_false (fun hi => hitem (Option.some.inj hi)) hplace
      · rfl
  · intro q hq
    have hne : q ≠ place := by
      rintro rfl
      exact hq hl
    rw [item?_put, if_neg hne]
    split
    · next hgiven => rw [item?, if_pos hgiven]
    · rfl

/-- What is written is read. -/
theorem read_of_write (h : s.write p item = .ok t) (hitem : item ≠ .directory) :
    t.read p = .ok item := by
  have hkept := write_rewrites h hitem
  obtain ⟨place, hl, hplace, rfl⟩ := write_eq_ok_iff.1 h
  refine read_eq_ok_iff.2 ⟨place, hkept.locate_iff.2 hl, ?_⟩
  have hgiven : isGiven place = false := by
    by_contra hg
    exact hplace (if_pos (Bool.not_eq_false _ ▸ hg))
  rw [item?_put, hgiven, if_neg Bool.false_ne_true, if_pos rfl]

/-! ## Names in a directory -/

theorem walk_append (s : Store) (parts : List String) (name : String) (place : List String) :
    s.walk (parts ++ [name]) place = (s.walk parts place).bind (s.walk [name]) := by
  induction parts generalizing place with
  | nil => rfl
  | cons part parts ih =>
    rw [List.cons_append, walk, walk]
    cases s.item? place with
    | none => rfl
    | some item =>
      cases item with
      | directory =>
        simp only
        split_ifs
        · exact ih _
        · exact ih _
        · rfl
        · exact ih _
      | _ => rfl

/-- A name of a file: it is not empty and leads neither nowhere nor upwards. -/
def IsProper (name : String) : Prop := name ≠ "" ∧ name ≠ "." ∧ name ≠ ".."

instance (name : String) : Decidable (IsProper name) := inferInstanceAs (Decidable (_ ∧ _ ∧ _))

theorem walk_singleton {name : String} (hname : IsProper name) (h : s.walk [name] place = .ok q) :
    q = place ++ [name] := by
  obtain ⟨hempty, hdot, hdots⟩ := hname
  rw [walk] at h
  cases hi : s.item? place with
  | none => rw [hi] at h; cases h
  | some item =>
    rw [hi] at h
    cases item with
    | directory =>
      simp only [hempty, hdot, hdots, or_self, if_false, walk] at h
      split at h
      · cases h
      · exact (Except.ok.inj h).symm
    | _ => cases h

theorem locate_child {name : String} (hname : IsProper name) (h : s.locate (p.child name) = .ok q) :
    ∃ place, s.walk p.parts p.start = .ok place ∧ q = place ++ [name] := by
  obtain ⟨_, _, hw⟩ := locate_eq_ok_iff.1 h
  rw [Path.child, walk_append] at hw
  change (s.walk p.parts p.start).bind (s.walk [name]) = .ok q at hw
  cases hp : s.walk p.parts p.start with
  | error e => rw [hp] at hw; cases hw
  | ok place =>
    rw [hp] at hw
    exact ⟨place, rfl, walk_singleton hname hw⟩

/-- Paths of two names in one directory lead to two places. -/
theorem locate_child_inj {name name' : String} (hname : IsProper name) (hname' : IsProper name')
    (h : s.locate (p.child name) = .ok q) (h' : s.locate (p.child name') = .ok q) :
    name = name' := by
  obtain ⟨place, _, rfl⟩ := locate_child hname h
  obtain ⟨place', _, he⟩ := locate_child hname' h'
  exact (List.cons.inj (List.append_inj' he rfl).2).1

end SkySources.Store
