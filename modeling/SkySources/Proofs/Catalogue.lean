import Mathlib
import SkySources.Catalogue
import SkySources.Proofs.Decimal
import SkySources.Proofs.Traverse

/-!
# Reading a catalogue back

A catalogue is read back in two steps: a text falls into lines at its line breaks, and a line
into entries at each comma that a space follows. No name of a column and no number is written
with a comma or a line break, so every entry comes back as it was written, whatever the numbers
are: negative, large, rounded up to another digit, or missing. There is no catalogue if an island
cannot be listed, because a whole number has too many digits or a position is too large for a
double.

What is proved:
  1. `entriesOf_intercalate`, `linesOf_lines`: entries and lines come back;
  2. `text?_eq_ok_iff`: which islands have a catalogue, and what is written for each;
  3. `tableOf_text`: so a catalogue is the names of its columns and the entries of its islands;
  4. `tells_written`: the entries of an island tell of it;
  5. `text_reads`: all of it, and that catalogues of the same text list the same islands, up to
     the digits that are not written.
-/

namespace SkySources.Catalogue

/-! ## Lines and entries -/

/-- The lines of a text, each of which ends in a line break. -/
def linesOf (text : String) : List String :=
  (text.toList.splitOn '\n').dropLast.map String.ofList

/-- What stands before, between and behind the commas that a space follows. -/
def pieces : List Char → List (List Char)
  | [] => [[]]
  | ',' :: ' ' :: rest => [] :: pieces rest
  | c :: rest => (pieces rest).modifyHead (c :: ·)

/-- The entries of a line. -/
def entriesOf (line : String) : List String := (pieces line.toList).map String.ofList

/-- The entries of a text, line by line. -/
def tableOf (text : String) : List (List String) := (linesOf text).map entriesOf

/-- An entry that no comma and no line break divides. -/
structure IsEntry (entry : String) : Prop where
  comma : ',' ∉ entry.toList
  lineBreak : '\n' ∉ entry.toList

section Pieces
variable {cs : List Char}

theorem pieces_cons {c : Char} (h : c ≠ ',') (cs : List Char) :
    pieces (c :: cs) = (pieces cs).modifyHead (c :: ·) :=
  pieces.eq_3 c cs fun _ hc _ => h hc

theorem pieces_of_notMem (h : ',' ∉ cs) : pieces cs = [cs] := by
  induction cs with
  | nil => rfl
  | cons c cs ih =>
    rw [List.mem_cons, not_or] at h
    rw [pieces_cons (Ne.symm h.1), ih h.2]
    rfl

theorem pieces_append (h : ',' ∉ cs) (rest : List Char) :
    pieces (cs ++ ',' :: ' ' :: rest) = cs :: pieces rest := by
  induction cs with
  | nil => rfl
  | cons c cs ih =>
    rw [List.mem_cons, not_or] at h
    rw [List.cons_append, pieces_cons (Ne.symm h.1), ih h.2]
    rfl

/-- Pieces without commas come back from between the commas. -/
theorem pieces_intercalate {css : List (List Char)} (hne : css ≠ []) (h : ∀ cs ∈ css, ',' ∉ cs) :
    pieces ([',', ' '].intercalate css) = css := by
  induction css with
  | nil => exact absurd rfl hne
  | cons cs css ih =>
    cases css with
    | nil =>
      rw [List.intercalate_singleton]
      exact pieces_of_notMem (h cs List.mem_cons_self)
    | cons cs' css =>
      rw [List.intercalate_cons_cons, List.append_assoc]
      change pieces (cs ++ ',' :: ' ' :: [',', ' '].intercalate (cs' :: css)) = _
      rw [pieces_append (h cs List.mem_cons_self),
        ih (List.cons_ne_nil _ _) fun cs hcs => h cs (List.mem_cons_of_mem _ hcs)]

end Pieces

section Entries
variable {entries : List String}

theorem toList_separator : separator.toList = [',', ' '] := rfl

theorem map_ofList_toList (xs : List String) : (xs.map String.toList).map String.ofList = xs := by
  rw [List.map_map]
  exact List.map_id'' (fun _ => String.ofList_toList) xs

theorem entriesOf_intercalate (hne : entries ≠ []) (h : ∀ e ∈ entries, IsEntry e) :
    entriesOf (separator.intercalate entries) = entries := by
  have hcommas : ∀ cs ∈ entries.map String.toList, ',' ∉ cs := by
    intro cs hcs
    obtain ⟨e, he, rfl⟩ := List.mem_map.1 hcs
    exact (h e he).comma
  rw [entriesOf, String.toList_intercalate, toList_separator,
    pieces_intercalate (by rwa [ne_eq, List.map_eq_nil_iff]) hcommas, map_ofList_toList]

/-- A line of whole entries has no line break in it. -/
theorem lineBreak_notMem_intercalate (h : ∀ e ∈ entries, IsEntry e) :
    '\n' ∉ (separator.intercalate entries).toList := by
  rw [String.toList_intercalate, toList_separator]
  induction entries with
  | nil => exact List.not_mem_nil
  | cons e entries ih =>
    have hfirst := (h e List.mem_cons_self).lineBreak
    cases entries with
    | nil => rwa [List.map_singleton, List.intercalate_singleton]
    | cons e' entries =>
      have hrest := ih fun e he => h e (List.mem_cons_of_mem _ he)
      rw [List.map_cons, List.map_cons, List.intercalate_cons_cons, List.mem_append,
        List.mem_append, not_or, not_or]
      exact ⟨⟨hfirst, by decide⟩, hrest⟩

end Entries

section Lines
variable {ls : List String}

/-- Lines with their breaks are what stands between the breaks, and nothing behind the last
one. -/
theorem toList_lines (ls : List String) : ("".intercalate (ls.map (· ++ "\n"))).toList =
    ['\n'].intercalate (ls.map String.toList ++ [[]]) := by
  -- nothing stands between the lines, so each of them only comes before the rest
  have hnext (cs : List Char) (css : List (List Char)) :
      [].intercalate (cs :: css) = cs ++ [].intercalate css := by
    cases css with
    | nil => rw [List.intercalate_singleton, List.intercalate_nil, List.append_nil]
    | cons cs' css => rw [List.intercalate_cons_cons, List.append_nil]
  rw [String.toList_intercalate, String.toList_empty]
  induction ls with
  | nil => rfl
  | cons l ls ih =>
    rw [List.map_cons, List.map_cons, hnext, ih, String.toList_append, List.map_cons,
      List.cons_append, List.intercalate_cons_of_ne_nil (by simp)]
    rfl

theorem linesOf_lines (h : ∀ l ∈ ls, '\n' ∉ l.toList) :
    linesOf ("".intercalate (ls.map (· ++ "\n"))) = ls := by
  have hbreaks : ∀ cs ∈ ls.map String.toList ++ [[]], '\n' ∉ cs := by
    intro cs hcs
    rcases List.mem_append.1 hcs with hcs | hcs
    · obtain ⟨l, hl, rfl⟩ := List.mem_map.1 hcs
      exact h l hl
    · rw [List.mem_singleton.1 hcs]
      exact List.not_mem_nil
  rw [linesOf, toList_lines, List.splitOn_intercalate '\n' hbreaks (by simp), List.dropLast_concat,
    map_ofList_toList]

end Lines

/-! ## Which islands are listed -/

/-- A coordinate of an island: that of the barycentre, or of the extremum as a double. -/
def coordinate (barycentre : Float) (extremum : Int) : Float :=
  if barycentre.isNaN then Float.ofInt extremum else barycentre

/-- The numbers of an island that are listed and are no counts. -/
def listed (i : Island Float) : List Float :=
  [coordinate i.xbar i.column, coordinate i.ybar i.row, i.extremum] ++ parameters i.fit

/-- What is written for an island. -/
def written (i : Island Float) : List String :=
  [i.label, i.sign, i.npix].map Decimal.integerText ++ (listed i).map (Decimal.fixed 6)

/-- An island can be listed: its whole numbers have so few digits that they can be written, and a
position that stands in for the barycentre is small enough for a double. -/
structure Listable (i : Island Float) : Prop where
  counts : ∀ n ∈ [i.label, i.sign, i.npix], n.natAbs < Nat.pow 10 Text.digitLimit
  column : i.xbar.isNaN = true → i.column.natAbs < Double.wholeLimit
  row : i.ybar.isNaN = true → i.row.natAbs < Double.wholeLimit

theorem count?_eq_ok_iff {n : Int} {s : String} :
    count? n = .ok s ↔ n.natAbs < Nat.pow 10 Text.digitLimit ∧ Decimal.integerText n = s := by
  unfold count?
  split
  · next h => exact ⟨fun hs => ⟨h, Except.ok.inj hs⟩, fun hs => congrArg Except.ok hs.2⟩
  · next h => exact iff_of_false nofun fun hs => h hs.1

theorem mapM_count?_eq_ok_iff {ns : List Int} {es : List String} : ns.mapM count? = .ok es ↔
    (∀ n ∈ ns, n.natAbs < Nat.pow 10 Text.digitLimit) ∧ ns.map Decimal.integerText = es := by
  induction ns generalizing es with
  | nil =>
    rw [List.mapM_nil]
    exact ⟨fun h => ⟨List.forall_mem_nil _, Except.ok.inj h⟩, fun h => congrArg Except.ok h.2⟩
  | cons n ns ih =>
    simp only [List.mapM_cons, bind_eq_ok_iff, count?_eq_ok_iff, ih, List.forall_mem_cons,
      List.map_cons, pure, Except.pure, Except.ok.injEq]
    constructor
    · intro h
      obtain ⟨_, ⟨hn, rfl⟩, _, ⟨hns, rfl⟩, rfl⟩ := h
      exact ⟨⟨hn, hns⟩, rfl⟩
    · intro h
      obtain ⟨⟨hn, hns⟩, rfl⟩ := h
      exact ⟨_, ⟨hn, rfl⟩, _, ⟨hns, rfl⟩, rfl⟩

theorem position?_eq_ok_iff {barycentre x : Float} {n : Int} : position? barycentre n = .ok x ↔
    (barycentre.isNaN = true → n.natAbs < Double.wholeLimit) ∧ coordinate barycentre n = x := by
  rw [← Double.isFinite_ofInt_iff]
  unfold position? coordinate
  cases hmissing : barycentre.isNaN with
  | false => simp
  | true => cases hfinite : (Float.ofInt n).isFinite <;> simp

theorem entries?_eq_ok_iff {i : Island Float} {es : List String} :
    entries? i = .ok es ↔ Listable i ∧ written i = es := by
  simp only [entries?, numbers?, bind_eq_ok_iff, mapM_count?_eq_ok_iff, position?_eq_ok_iff, pure,
    Except.pure, Except.ok.injEq]
  constructor
  · intro h
    obtain ⟨_, ⟨hcounts, rfl⟩, _, ⟨_, ⟨hcolumn, rfl⟩, _, ⟨hrow, rfl⟩, rfl⟩, rfl⟩ := h
    exact ⟨⟨hcounts, hcolumn, hrow⟩, rfl⟩
  · intro h
    obtain ⟨hlistable, rfl⟩ := h
    exact ⟨_, ⟨hlistable.counts, rfl⟩, _,
      ⟨_, ⟨hlistable.column, rfl⟩, _, ⟨hlistable.row, rfl⟩, rfl⟩, rfl⟩

theorem mapM_entries?_eq_ok_iff {islands : List (Island Float)} {rows : List (List String)} :
    islands.mapM entries? = .ok rows ↔
      (∀ i ∈ islands, Listable i) ∧ islands.map written = rows := by
  constructor
  · intro h
    refine ⟨fun i hi => ?_, ?_⟩
    · obtain ⟨es, hes⟩ := exists_ok_of_mem_mapM h hi
      exact (entries?_eq_ok_iff.1 hes).1
    · have hkeep (i : Island Float) (es : List String) (hes : entries? i = .ok es) :
          id es = written i := (entries?_eq_ok_iff.1 hes).2.symm
      rw [← map_eq_of_mapM_eq_ok hkeep h, List.map_id]
  · intro h
    obtain ⟨hlistable, rfl⟩ := h
    rw [mapM_eq_ok_iff, List.map_map]
    exact List.map_congr_left fun i hi => entries?_eq_ok_iff.2 ⟨hlistable i hi, rfl⟩

/-- There is a catalogue if every island can be listed, and it has a line for each of them. -/
theorem text?_eq_ok_iff {islands : List (Island Float)} {text : String} :
    text? islands = .ok text ↔ (∀ i ∈ islands, Listable i) ∧
      "".intercalate ((columns :: islands.map written).map line) = text := by
  simp only [text?, bind_eq_ok_iff, mapM_entries?_eq_ok_iff, pure, Except.pure, Except.ok.injEq]
  constructor
  · intro h
    obtain ⟨_, ⟨hlistable, rfl⟩, htext⟩ := h
    exact ⟨hlistable, htext⟩
  · intro h
    exact ⟨_, ⟨h.1, rfl⟩, h.2⟩

/-! ## The entries of an island -/

theorem isEntry_of_isNumeral {e : String} (h : ∀ c ∈ e.toList, Decimal.isNumeral c = true) :
    IsEntry e where
  comma hc := Bool.false_ne_true (h ',' hc)
  lineBreak hc := Bool.false_ne_true (h '\n' hc)

theorem isEntry_fixed (x : Float) : IsEntry (Decimal.fixed 6 x) := by
  cases hx : x.isFinite with
  | true =>
    obtain ⟨b, hb⟩ := Double.exists_ofFloat? hx
    rw [Decimal.fixed, Decimal.orWord, hb]
    exact isEntry_of_isNumeral (Decimal.isNumeral_of_mem_fixedText (by decide))
  | false =>
    rcases Decimal.fixed_of_not_isFinite 6 hx with h | h | h <;> rw [h] <;>
      exact ⟨by decide +kernel, by decide +kernel⟩

theorem isEntry_of_mem_written {i : Island Float} : ∀ e ∈ written i, IsEntry e := by
  intro e he
  rcases List.mem_append.1 he with he | he
  · obtain ⟨n, -, rfl⟩ := List.mem_map.1 he
    exact isEntry_of_isNumeral Decimal.isNumeral_of_mem_integerText
  · obtain ⟨x, -, rfl⟩ := List.mem_map.1 he
    exact isEntry_fixed x

theorem isEntry_of_mem_columns : ∀ name ∈ columns, IsEntry name := by
  have hcommas : ∀ name ∈ columns, ',' ∉ name.toList := by decide +kernel
  have hbreaks : ∀ name ∈ columns, '\n' ∉ name.toList := by decide +kernel
  exact fun name hname => ⟨hcommas name hname, hbreaks name hname⟩

/-- A catalogue is the names of its columns and the entries of its islands. -/
theorem tableOf_text {islands : List (Island Float)} {text : String}
    (h : text? islands = .ok text) : tableOf text = columns :: islands.map written := by
  have hentries : ∀ es ∈ columns :: islands.map written, es ≠ [] ∧ ∀ e ∈ es, IsEntry e := by
    intro es hes
    rcases List.mem_cons.1 hes with rfl | hes
    · exact ⟨List.cons_ne_nil _ _, isEntry_of_mem_columns⟩
    · obtain ⟨i, -, rfl⟩ := List.mem_map.1 hes
      exact ⟨List.cons_ne_nil _ _, isEntry_of_mem_written⟩
  obtain ⟨-, rfl⟩ := text?_eq_ok_iff.1 h
  have htext : (columns :: islands.map written).map line =
      ((columns :: islands.map written).map separator.intercalate).map (· ++ "\n") := by
    rw [List.map_map]
    rfl
  have hlines : linesOf ("".intercalate ((columns :: islands.map written).map line)) =
      (columns :: islands.map written).map separator.intercalate := by
    rw [htext]
    apply linesOf_lines
    intro l hl
    obtain ⟨es, hes, rfl⟩ := List.mem_map.1 hl
    exact lineBreak_notMem_intercalate (hentries es hes).2
  rw [tableOf, hlines, List.map_map]
  conv_rhs => rw [← List.map_id (columns :: islands.map written)]
  exact List.map_congr_left fun es hes => entriesOf_intercalate (hentries es hes).1 (hentries es hes).2

/-! ## What the entries tell -/

/-- The entry of a line under the name of a column. -/
def under? (es : List String) (name : String) : Option String := (columns.zip es).lookup name

/-- An entry reads as a decimal that is half a unit of the sixth digit behind the point away from
a number at most. -/
def ReadsNear (entry : String) (q : ℚ) : Prop :=
  ∃ d, Text.decimalOf? entry = some d ∧ |d.value - q| ≤ 5 / 10 ^ 7

/-- Under the name of a column stands a double, if it is finite. -/
def Stands (es : List String) (name : String) (x : Float) : Prop :=
  x.isFinite = true → ∃ e, under? es name = some e ∧ ReadsNear e (Double.value x)

/-- The entries of a line tell of an island. -/
structure Tells (es : List String) (i : Island Float) : Prop where
  length : es.length = columns.length ∧ columns.length = 10
  label : (under? es "label").bind String.toInt? = some i.label
  sign : (under? es "sign").bind String.toInt? = some i.sign
  npix : (under? es "npix").bind String.toInt? = some i.npix
  /-- The position is that of the barycentre, or of the extremum as a double. -/
  x : Stands es "x" (if i.xbar.isNaN then Float.ofInt i.column else i.xbar)
  y : Stands es "y" (if i.ybar.isNaN then Float.ofInt i.row else i.ybar)
  /-- A position of so few digits is the same as a double. -/
  column : i.xbar.isNaN = true → i.column.natAbs < 2 ^ 53 →
    ∃ e, under? es "x" = some e ∧ ReadsNear e i.column
  row : i.ybar.isNaN = true → i.row.natAbs < 2 ^ 53 →
    ∃ e, under? es "y" = some e ∧ ReadsNear e i.row
  peak : Stands es "peak" i.extremum
  fit : ∀ f ∈ i.fit, (Stands es "amplitude" f.gaussian.amplitude ∧
    Stands es "semimajor" f.gaussian.semimajor) ∧
    Stands es "semiminor" f.gaussian.semiminor ∧ Stands es "theta" f.gaussian.theta
  no_fit : i.fit = none → ∀ name ∈ ["amplitude", "semimajor", "semiminor", "theta"],
    ∃ e x, under? es name = some e ∧ Text.float? e = some x ∧ x.isNaN = true

theorem readsNear_fixed {x : Float} (h : x.isFinite = true) :
    ReadsNear (Decimal.fixed 6 x) (Double.value x) := by
  obtain ⟨d, hd, hnear⟩ := Decimal.exists_decimalOf?_fixed (show 0 < 6 by decide) h
  refine ⟨d, hd, hnear.trans ?_⟩
  norm_num

theorem stands_fixed {es : List String} {name : String} {x : Float}
    (h : under? es name = some (Decimal.fixed 6 x)) : Stands es name x :=
  fun hx => ⟨_, h, readsNear_fixed hx⟩

/-- A coordinate of an extremum of so few digits is listed as it is. -/
theorem readsNear_coordinate {barycentre : Float} {n : Int} (hmissing : barycentre.isNaN = true)
    (hn : n.natAbs < 2 ^ 53) : ReadsNear (Decimal.fixed 6 (coordinate barycentre n)) n := by
  obtain ⟨hfinite, hvalue⟩ := Double.value_ofInt hn
  rw [coordinate, if_pos hmissing, ← hvalue]
  exact readsNear_fixed hfinite

/-- The entries of an island up to its fit. -/
def front (i : Island Float) : List String :=
  [Decimal.integerText i.label, Decimal.integerText i.sign, Decimal.integerText i.npix,
    Decimal.fixed 6 (coordinate i.xbar i.column), Decimal.fixed 6 (coordinate i.ybar i.row),
    Decimal.fixed 6 i.extremum]

theorem written_of_fit {i : Island Float} {f : GaussianFit Float} (h : i.fit = some f) :
    written i = front i ++ [Decimal.fixed 6 f.gaussian.amplitude,
      Decimal.fixed 6 f.gaussian.semimajor, Decimal.fixed 6 f.gaussian.semiminor,
      Decimal.fixed 6 f.gaussian.theta] := by
  rw [written, listed, h]
  rfl

theorem written_of_no_fit {i : Island Float} (h : i.fit = none) :
    written i = front i ++ List.replicate 4 "nan" := by
  have hmissing : Decimal.fixed 6 (Scalar.missing : Float) = "nan" := by decide +kernel
  rw [written, listed, h, parameters, List.map_append, List.map_replicate, hmissing]
  rfl

/-- What is written for an island tells of it. -/
theorem tells_written (i : Island Float) : Tells (written i) i where
  length := by
    cases h : i.fit with
    | none => rw [written_of_no_fit h]; exact ⟨rfl, rfl⟩
    | some f => rw [written_of_fit h]; exact ⟨rfl, rfl⟩
  label := Decimal.toInt?_integerText i.label
  sign := Decimal.toInt?_integerText i.sign
  npix := Decimal.toInt?_integerText i.npix
  x := stands_fixed rfl
  y := stands_fixed rfl
  column hmissing hn := ⟨_, rfl, readsNear_coordinate hmissing hn⟩
  row hmissing hn := ⟨_, rfl, readsNear_coordinate hmissing hn⟩
  peak := stands_fixed rfl
  fit f hf := by
    rw [written_of_fit hf]
    exact ⟨⟨stands_fixed rfl, stands_fixed rfl⟩, stands_fixed rfl, stands_fixed rfl⟩
  no_fit h name hname := by
    have hnan : Text.float? "nan" = some (0.0 / 0.0) := rfl
    have hmissing : (0.0 / 0.0 : Float).isNaN = true := by decide +kernel
    refine ⟨"nan", 0.0 / 0.0, ?_, hnan, hmissing⟩
    rw [written_of_no_fit h]
    simp only [List.mem_cons, List.not_mem_nil, or_false] at hname
    rcases hname with rfl | rfl | rfl | rfl <;> rfl

/-! ## The same text -/

/-- Two doubles are told from each other by the sixth digit behind the point at the latest. -/
structure Close (x y : Float) : Prop where
  isFinite : x.isFinite = y.isFinite
  near : x.isFinite = true → |Double.value x - Double.value y| ≤ 1 / 10 ^ 6

/-- Two islands are listed alike. -/
structure Agrees (i j : Island Float) : Prop where
  label : i.label = j.label
  sign : i.sign = j.sign
  npix : i.npix = j.npix
  numbers : List.Forall₂ Close (listed i) (listed j)

theorem close_of_fixed_eq {x y : Float} (h : Decimal.fixed 6 x = Decimal.fixed 6 y) :
    Close x y := by
  cases hx : x.isFinite with
  | true =>
    cases hy : y.isFinite with
    | true =>
      -- both are near the one decimal that the text reads as
      refine ⟨hx.trans hy.symm, fun _ => ?_⟩
      obtain ⟨d, hd, hnear⟩ := readsNear_fixed hx
      obtain ⟨d', hd', hnear'⟩ := readsNear_fixed hy
      rw [h, hd'] at hd
      cases hd
      rw [abs_sub_comm] at hnear
      calc |Double.value x - Double.value y|
          ≤ |Double.value x - d.value| + |d.value - Double.value y| := abs_sub_le _ _ _
        _ ≤ 5 / 10 ^ 7 + 5 / 10 ^ 7 := add_le_add hnear hnear'
        _ = 1 / 10 ^ 6 := by norm_num
    | false =>
      obtain ⟨d, hd, -⟩ := readsNear_fixed hx
      rw [h, Decimal.decimalOf?_fixed_eq_none hy] at hd
      cases hd
  | false =>
    cases hy : y.isFinite with
    | true =>
      obtain ⟨d, hd, -⟩ := readsNear_fixed hy
      rw [← h, Decimal.decimalOf?_fixed_eq_none hx] at hd
      cases hd
    | false => exact ⟨hx.trans hy.symm, fun hfinite => absurd (hx.symm.trans hfinite) (by decide)⟩

/-- Equal entries of two lists come from entries in the same places. -/
theorem forall₂_of_map_eq {β γ : Type} {f : β → γ} {xs ys : List β} (h : xs.map f = ys.map f) :
    List.Forall₂ (fun x y => f x = f y) xs ys := by
  rw [← List.forall₂_map_right_iff, ← List.forall₂_map_left_iff, h]
  exact List.forall₂_refl _

theorem integerText_injective {n n' : Int}
    (h : Decimal.integerText n = Decimal.integerText n') : n = n' := by
  have hread := congrArg String.toInt? h
  rw [Decimal.toInt?_integerText, Decimal.toInt?_integerText] at hread
  exact Option.some.inj hread

theorem agrees_of_written_eq {i j : Island Float} (h : written i = written j) : Agrees i j := by
  obtain ⟨hlabel, hrest⟩ := List.cons.inj h
  obtain ⟨hsign, hrest⟩ := List.cons.inj hrest
  obtain ⟨hnpix, hnumbers⟩ := List.cons.inj hrest
  constructor
  · exact integerText_injective hlabel
  · exact integerText_injective hsign
  · exact integerText_injective hnpix
  · exact (forall₂_of_map_eq hnumbers).imp fun _ _ => close_of_fixed_eq

/-- There is a catalogue of islands if and only if each of them can be listed. Its text is read back
as a line of names and one line for each island, in their order, which tells of it. So lists of
islands that have the same text agree in what is listed. -/
theorem text_reads :
    (∀ islands, (∃ text, text? islands = .ok text) ↔ ∀ i ∈ islands, Listable i) ∧
    (∀ islands text, text? islands = .ok text →
      ∃ rows, tableOf text = columns :: rows ∧ List.Forall₂ Tells rows islands) ∧
    ∀ islands islands' text, text? islands = .ok text → text? islands' = .ok text →
      List.Forall₂ Agrees islands islands' := by
  refine ⟨?_, ?_, ?_⟩
  · intro islands
    simp only [text?_eq_ok_iff, exists_and_left, exists_eq', and_true]
  · intro islands text h
    refine ⟨islands.map written, tableOf_text h, ?_⟩
    rw [List.forall₂_map_left_iff]
    exact List.forall₂_same.2 fun i _ => tells_written i
  · intro islands islands' text h h'
    have htable := (tableOf_text h).symm.trans (tableOf_text h')
    exact (forall₂_of_map_eq (List.cons.inj htable).2).imp fun _ _ => agrees_of_written_eq

/-- An island of one pixel in a column, with a barycentre that may be missing. -/
def lone (xbar : Float) (column : Int) : Island Float :=
  { label := 1, sign := -1, box := ⟨0, 0, 1, 1, le_rfl, le_rfl⟩, npix := 1, extremum := -3.0
    column := column, row := 0, xbar := xbar, ybar := 0.0 / 0.0, fit := none, fitFailed := false }

theorem listable_lone (xbar : Float) {column : Int} (h : column.natAbs < Double.wholeLimit) :
    ∀ i ∈ [lone xbar column], Listable i := by
  have hrow : (0 : Int).natAbs < Double.wholeLimit := by decide +kernel
  have hone : 1 < Nat.pow 10 Text.digitLimit := by decide +kernel
  refine List.forall_mem_singleton.2 ⟨?_, fun _ => h, fun _ => hrow⟩
  intro n hn
  simp only [lone, List.mem_cons, List.not_mem_nil, or_false] at hn
  rcases hn with rfl | rfl | rfl <;> exact hone

/-- A shift of the barycentre by less than what is written does not show. -/
theorem text_reads_lone : ∃ text, text? [lone 1.0 1] = .ok text ∧
    text? [lone 1.0000001 1] = .ok text ∧
    List.Forall₂ Agrees [lone 1.0 1] [lone 1.0000001 1] ∧
    ∃ es, tableOf text = [columns, es] ∧ Tells es (lone 1.0000001 1) := by
  have hwritten : written (lone 1.0 1) = written (lone 1.0000001 1) := by decide +kernel
  have hcolumn : (1 : Int).natAbs < Double.wholeLimit := by decide +kernel
  obtain ⟨text, htext⟩ := (text_reads.1 [lone 1.0 1]).2 (listable_lone _ hcolumn)
  have htext' : text? [lone 1.0000001 1] = .ok text := by
    refine text?_eq_ok_iff.2 ⟨listable_lone _ hcolumn, ?_⟩
    rw [← (text?_eq_ok_iff.1 htext).2, List.map_singleton, List.map_singleton, hwritten]
  obtain ⟨rows, htable, hrows⟩ := text_reads.2.1 _ _ htext'
  obtain ⟨es, rest, htells, hrest, rfl⟩ := List.forall₂_cons_right_iff.1 hrows
  rw [List.forall₂_nil_right_iff.1 hrest] at htable
  exact ⟨text, htext, htext', text_reads.2.2 _ _ _ htext htext', es, htable, htells⟩

/-- An island whose extremum lies further out than doubles tell columns apart. -/
def remote : Island Float := lone (0.0 / 0.0) 9007199254740993

/-- An island whose extremum lies further out than doubles reach. -/
def lost : Island Float := lone (0.0 / 0.0) (10 ^ 400 : Nat)

/-- The column of the one is listed one too low, and the other cannot be listed. -/
theorem text_remote : remote.xbar.isNaN = true ∧
    (∃ text es e, text? [remote] = .ok text ∧ tableOf text = [columns, es] ∧
      under? es "x" = some e ∧ ¬ReadsNear e remote.column) ∧
    lost.xbar.isNaN = true ∧ ¬∃ text, text? [lost] = .ok text := by
  have hmissing : (0.0 / 0.0 : Float).isNaN = true := by decide +kernel
  have hremote : text? [remote] = .ok _ :=
    text?_eq_ok_iff.2 ⟨listable_lone _ (by decide +kernel), rfl⟩
  have hdigits : Binary.ofFloat? (Float.ofInt 9007199254740993) = some ⟨false, 2 ^ 52, 1⟩ := by
    decide +kernel
  have hrounded : Decimal.atPlaces 6 ⟨false, 2 ^ 52, 1⟩ = ⟨false, 9007199254740992000000, -6⟩ := by
    decide +kernel
  refine ⟨hmissing, ⟨_, written remote, _, hremote, tableOf_text hremote, rfl, ?_⟩, hmissing, ?_⟩
  · rintro ⟨d, hd, hnear⟩
    rw [coordinate, if_pos (show remote.xbar.isNaN = true from hmissing), Decimal.fixed,
      Decimal.orWord, show Binary.ofFloat? (Float.ofInt remote.column) = _ from hdigits] at hd
    simp only at hd
    rw [Decimal.decimalOf?_fixedText (by decide) rfl, hrounded] at hd
    cases hd
    norm_num [Decimal.value, Binary.unitSign, remote, lone] at hnear
  · intro h
    obtain ⟨text, htext⟩ := h
    have hlisted := (text?_eq_ok_iff.1 htext).1 lost (List.mem_singleton_self lost)
    exact absurd (hlisted.column hmissing) (by decide +kernel)

end SkySources.Catalogue
