import Mathlib
import SkySources.CommandLine
import SkySources.Proofs.Decimal
import SkySources.Proofs.Traverse

/-!
# How command lines are read

The arguments of a command line are read one after the other. Each is a use of an option,
perhaps together with the next one, or a plain argument that waits for its group to end, or
it is not understood; behind the mark, all arguments are plain. The rules of reading say
this of the texts themselves (`Reads`), and they are what happens (`reads_iff`).

What an argument says is told without its reader. It names an option in full or by a beginning
that no other name has, and its value is what the rules of numerals make of the text
(`Form.Reads`).

What is proved:
  1. `mem_named_of_lookOf`, `isWritten_of_lookOf`: an option is told by a name that it has;
  2. `readValue_eq_ok_iff`: how values are read;
  3. `Use.Valid.spelled`: how a use of an option is written;
  4. `readAll_use`, `begins_of_readAll`: one use of an option, read in both directions;
  5. `reads_iff`: the rules of reading.
-/

namespace SkySources.CommandLine

/-! ## Looks -/

/-- A name of an option that says no. -/
def saysNo (name : String) : Bool := "--no-".toList.isPrefixOf name.toList

section Looks
variable {text name : String} {c : Choice} {value : Option String}

theorem mem_named_of_ofName? (h : Choice.ofName? name = some c) : (name, c) ∈ Choice.named := by
  obtain ⟨front, back, heq, -⟩ := List.lookup_eq_some_iff.1 h
  rw [heq]
  exact List.mem_append_right _ List.mem_cons_self

theorem mem_named_of_exactLook? (h : exactLook? text = some (.choice c name value)) :
    (name, c) ∈ Choice.named := by
  unfold exactLook? at h
  split at h
  · next hc =>
    cases h
    exact mem_named_of_ofName? hc
  · split at h
    · obtain ⟨c', hc', heq⟩ := Option.map_eq_some_iff.1 h
      cases heq
      exact mem_named_of_ofName? hc'
    · cases h

theorem mem_named_of_looksByBeginning {cs : List Char} {entry : String × Look}
    (h : entry ∈ looksByBeginning cs) :
    ∃ c name value, entry.2 = .choice c name value ∧ (name, c) ∈ Choice.named := by
  unfold looksByBeginning at h
  split at h
  · obtain ⟨⟨name, c⟩, he, rfl⟩ := List.mem_map.1 h
    exact ⟨c, name, _, rfl, List.mem_of_mem_filter he⟩
  · rw [Option.mem_toList] at h
    obtain ⟨c, hc, rfl⟩ := Option.map_eq_some_iff.1 h
    exact ⟨c, _, _, rfl, mem_named_of_ofName? hc⟩
  · exact absurd h List.not_mem_nil

/-- An option is told by one of its names. -/
theorem mem_named_of_lookOf (h : lookOf text = .ok (.choice c name value)) :
    (name, c) ∈ Choice.named := by
  unfold lookOf at h
  dsimp only at h
  split at h
  · cases h
  · split at h
    · next look hlook =>
      cases h
      exact mem_named_of_exactLook? hlook
    · split at h
      · next look hlooks =>
        obtain ⟨c', name', value', heq, hmem⟩ :=
          mem_named_of_looksByBeginning (hlooks ▸ List.mem_singleton_self _)
        cases h
        cases heq
        exact hmem
      · split at h
        · cases h
        · cases h
      · cases h

/-- What is written names an option: in full, or by a beginning that no other name has. -/
structure Names (written name : String) : Prop where
  begins : written.toList <+: name.toList
  only : written ≠ name → ∀ entry ∈ Choice.named, written.toList <+: entry.1.toList → entry.1 = name

theorem names_self (name : String) : Names name name :=
  ⟨List.prefix_refl _, fun h => absurd rfl h⟩

theorem names_of_fitting {written : List Char} (h : fitting written = [(name, c)]) :
    Names (String.ofList written) name := by
  have hmem {entry : String × Choice} :
      entry ∈ Choice.named ∧ written <+: entry.1.toList ↔ entry = (name, c) := by
    rw [← List.mem_singleton, ← h, fitting, List.mem_filter, List.isPrefixOf_iff_prefix]
  constructor
  · rw [String.toList_ofList]
    exact (hmem.2 rfl).2
  · intro _ entry hentry hbegins
    rw [String.toList_ofList] at hbegins
    rw [hmem.1 ⟨hentry, hbegins⟩]

/-- The part before the equals sign has none. -/
theorem splitAtEquals_eq {cs front : List Char} {value : Option (List Char)}
    (h : splitAtEquals cs = (front, value)) : (value = none → front = cs) ∧
      ∀ given, value = some given → cs = front ++ '=' :: given ∧ '=' ∉ front := by
  unfold splitAtEquals at h
  split at h
  · cases h
    refine ⟨fun _ => rfl, ?_⟩
    intro given hgiven
    cases hgiven
  · next mark rest hdrop =>
    cases h
    refine ⟨fun hnone => absurd hnone (Option.some_ne_none _), ?_⟩
    rintro _ ⟨⟩
    obtain rfl : mark = '=' := by
      have hhead := List.head?_dropWhile_not (· ≠ '=') cs
      rw [hdrop] at hhead
      simpa using hhead
    constructor
    · rw [← hdrop, List.takeWhile_append_dropWhile]
    · intro hmem
      have hne := List.mem_takeWhile_imp hmem
      simp at hne

/-- How an option and its value are written in an argument. -/
def IsWritten (text name : String) : Option String → Prop
  | none => Names text name
  | some given => ∃ written, text = written ++ "=" ++ given ∧ '=' ∉ written.toList ∧ Names written name

theorem isWritten_of_split {front : List Char} {given : Option (List Char)}
    (h : splitAtEquals text.toList = (front, given)) (hnames : Names (String.ofList front) name) :
    IsWritten text name (given.map String.ofList) := by
  obtain ⟨hnone, hsome⟩ := splitAtEquals_eq h
  cases given with
  | none =>
    rw [hnone rfl, String.ofList_toList] at hnames
    exact hnames
  | some given =>
    obtain ⟨htext, hmark⟩ := hsome given rfl
    refine ⟨String.ofList front, ?_, by rwa [String.toList_ofList], hnames⟩
    rw [← String.toList_inj, htext]
    simp

/-- An option is told by what is written, unless a value follows a short name without a mark. -/
theorem isWritten_of_lookOf (h : lookOf text = .ok (.choice c name value)) :
    IsWritten text name value ∨ name.toList.length = 2 := by
  unfold lookOf at h
  dsimp only at h
  split at h
  · cases h
  · split at h
    · next look hlook =>
      cases h
      left
      unfold exactLook? at hlook
      split at hlook
      · cases hlook
        exact names_self _
      · split at hlook
        · next front given hsplit =>
          obtain ⟨c', -, heq⟩ := Option.map_eq_some_iff.1 hlook
          cases heq
          exact isWritten_of_split hsplit (names_self _)
        · cases hlook
    · split at h
      · next look hlooks =>
        cases h
        unfold looksByBeginning at hlooks
        split at hlooks
        · left
          cases hsplit : splitAtEquals text.toList with
          | mk front given =>
            rw [hsplit] at hlooks
            obtain ⟨⟨name', c'⟩, hfitting, heq⟩ := List.map_eq_singleton_iff.1 hlooks
            cases heq
            exact isWritten_of_split hsplit (names_of_fitting hfitting)
        · right
          rw [Option.toList_eq_singleton_iff] at hlooks
          obtain ⟨c', -, heq⟩ := Option.map_eq_some_iff.1 hlooks
          cases heq
          rw [String.toList_ofList]
          rfl
        · cases hlooks
      · split at h
        · cases h
        · cases h
      · cases h

theorem lookOf_ne_dashes : lookOf text ≠ .ok .dashes := by
  intro h
  unfold lookOf at h
  dsimp only at h
  split at h
  · cases h
  · split at h
    · next look hlook =>
      cases h
      unfold exactLook? at hlook
      split at hlook
      · cases hlook
      · split at hlook
        · obtain ⟨c, -, heq⟩ := Option.map_eq_some_iff.1 hlook
          cases heq
        · cases hlook
    · split at h
      · next look hlooks =>
        obtain ⟨c, name, value, heq, -⟩ :=
          mem_named_of_looksByBeginning (hlooks ▸ List.mem_singleton_self _)
        cases h
        cases heq
      · split at h
        · cases h
        · cases h
      · cases h

/-- The mark is the beginning of many names. -/
theorem lookOf_mark (look : Look) : lookOf "--" ≠ .ok look := by
  have hfails : (lookOf "--").isOk = false := by decide +kernel
  intro h
  rw [h] at hfails
  cases hfails

theorem ne_mark_of_lookOf {look : Look} (h : lookOf text = .ok look) : text ≠ "--" := by
  intro heq
  exact lookOf_mark look (heq ▸ h)

end Looks

/-! ## Names -/

theorem target_ne_help : ∀ entry ∈ Choice.named, entry.2.form.takesValue →
    entry.2.target ≠ .help := by
  decide +kernel

/-- Only the wish for help has a name of one letter. -/
theorem target_eq_help : ∀ entry ∈ Choice.named, ∀ name ∈ entry.2.names,
    name.toList.length = 2 → entry.2.target = .help := by
  decide +kernel

/-- An option without a value says yes by its first name, and one that only says yes by all
of its names. -/
theorem saying_eq : ∀ entry ∈ Choice.named, entry.2.form.takesValue = false →
    entry.2.target ≠ .help →
    (entry.2.form = .yes || entry.2.names.head? = some entry.1) = !saysNo entry.1 := by
  decide +kernel

theorem sayingOf_eq {name : String} {c : Choice} (h : (name, c) ∈ Choice.named)
    (htakes : c.form.takesValue = false) (hhelp : c.target ≠ .help) :
    c.sayingOf name = .truth !saysNo name :=
  congrArg Value.truth (saying_eq _ h htakes hhelp)

theorem Choice.mem_names {name : String} {c : Choice} (h : (name, c) ∈ Choice.named) :
    name ∈ c.names := by
  obtain ⟨c', -, hmem⟩ := List.mem_flatMap.1 h
  obtain ⟨name', hname, heq⟩ := List.mem_map.1 hmem
  cases heq
  exact hname

/-! ## Arguments -/

theorem arguments_mark (rest : List String) :
    arguments ("--" :: rest) = .ok (⟨"--", .dashes⟩ :: rest.map fun text => ⟨text, .plain⟩) := rfl

section Arguments
variable {text : String} {rest : List String}

theorem arguments_cons {look : Look} (h : lookOf text = .ok look) {others : List Argument}
    (hrest : arguments rest = .ok others) :
    arguments (text :: rest) = .ok (⟨text, look⟩ :: others) := by
  rw [arguments.eq_3 text rest (ne_mark_of_lookOf h), h, hrest]
  rfl

theorem arguments_cons_eq_ok (hne : text ≠ "--") {args : List Argument}
    (h : arguments (text :: rest) = .ok args) : ∃ look others, lookOf text = .ok look ∧
      arguments rest = .ok others ∧ args = ⟨text, look⟩ :: others := by
  rw [arguments.eq_3 text rest hne] at h
  cases hlook : lookOf text with
  | error fault =>
    rw [hlook] at h
    cases h
  | ok look =>
    cases hrest : arguments rest with
    | error fault =>
      rw [hlook, hrest] at h
      cases h
    | ok others =>
      rw [hlook, hrest] at h
      cases h
      exact ⟨look, others, rfl, rfl, rfl⟩

end Arguments

/-! ## Uses of options -/

/-- A use of an option: the arguments that it takes, the full name of the option, what it
sets, and to which value. -/
structure Use where
  texts : List String
  option : String
  target : Target
  value : Value

/-- What a text reads as in a form of options: a whole number or a float by the rules of
numerals, or the text itself, and it is one of the choices if there are any. -/
inductive Form.Reads : Form → String → Value → Prop where
  | whole {choices : List Int} {text : String} {n : Int} :
      Text.IsWhole text n → choices = [] ∨ n ∈ choices → Reads (.whole choices) text (.whole n)
  | float {text : String} {x : Float} : Text.IsFloat text x → Reads .float text (.float x)
  | word {choices : List String} {text : String} :
      choices = [] ∨ text ∈ choices → Reads (.word choices) text (.text text)

/-- What a text means as the value of an option; the mark stands for no value at all. -/
def Choice.Means (c : Choice) (text : String) (v : Value) : Prop :=
  if text = "--" then v = .list [] else c.form.Reads text v

theorem Choice.among_eq_ok_iff {β : Type} [BEq β] [LawfulBEq β] {c : Choice} {shown : β → String}
    {choices : List β} {value value' : β} : c.among shown choices value = .ok value' ↔
      value' = value ∧ (choices = [] ∨ value ∈ choices) := by
  unfold Choice.among
  split
  · next hmem =>
    rw [Bool.or_eq_true, List.isEmpty_iff, List.contains_iff_mem] at hmem
    rw [Except.ok.injEq, eq_comm]
    exact (and_iff_left hmem).symm
  · next hmem =>
    rw [Bool.or_eq_true, List.isEmpty_iff, List.contains_iff_mem] at hmem
    constructor
    · intro h
      cases h
    · intro h
      exact absurd h.2 hmem

/-- Values are read by these rules. -/
theorem Choice.readValue_eq_ok_iff {c : Choice} {text : String} {v : Value} :
    c.readValue text = .ok v ↔ c.form.Reads text v := by
  unfold Choice.readValue
  cases c.form with
  | whole choices =>
    constructor
    · intro h
      dsimp only at h
      split at h
      · next n hn =>
        obtain ⟨m, hm, rfl⟩ := map_eq_ok_iff.1 h
        obtain ⟨rfl, hmem⟩ := among_eq_ok_iff.1 hm
        exact .whole (Text.whole?_eq_some_iff.1 hn) hmem
      · cases h
    · intro h
      cases h with
      | whole hn hmem =>
        dsimp only
        rw [Text.whole?_eq_some_iff.2 hn]
        exact map_eq_ok_iff.2 ⟨_, among_eq_ok_iff.2 ⟨rfl, hmem⟩, rfl⟩
  | float =>
    constructor
    · intro h
      dsimp only at h
      split at h
      · next x hx =>
        cases h
        exact .float (Text.float?_eq_some_iff.1 hx)
      · cases h
    · intro h
      cases h with
      | float hx =>
        dsimp only
        rw [Text.float?_eq_some_iff.2 hx]
  | word choices =>
    constructor
    · intro h
      obtain ⟨s, hs, rfl⟩ := map_eq_ok_iff.1 h
      obtain ⟨rfl, hmem⟩ := among_eq_ok_iff.1 hs
      exact .word hmem
    · intro h
      cases h with
      | word hmem => exact map_eq_ok_iff.2 ⟨_, among_eq_ok_iff.2 ⟨rfl, hmem⟩, rfl⟩
  | yes =>
    constructor
    · intro h
      cases h
    · intro h
      cases h
  | yesOrNo =>
    constructor
    · intro h
      cases h
    · intro h
      cases h

/-- The arguments of a use are an option with its value, or an option that takes none. An
option without a value says yes, and by a name that says no it says no. -/
inductive Use.Valid : Use → Prop where
  | attached {text name given : String} {c : Choice} {v : Value} :
      lookOf text = .ok (.choice c name (some given)) → c.form.takesValue → c.Means given v →
      Valid ⟨[text], name, c.target, v⟩
  | separate {text name given : String} {c : Choice} {v : Value} :
      lookOf text = .ok (.choice c name none) → c.form.takesValue → lookOf given = .ok .plain →
      c.Means given v → Valid ⟨[text, given], name, c.target, v⟩
  | bare {text name : String} {c : Choice} :
      lookOf text = .ok (.choice c name none) → c.form.takesValue = false → c.target ≠ .help →
      Valid ⟨[text], name, c.target, .truth !saysNo name⟩

/-- How a use is written: what names the option, and behind an equals sign or in an argument of
its own the text that its value is read from, if it takes one. -/
inductive Use.Spelled : Use → Prop where
  | attached {written name given : String} {c : Choice} {v : Value} :
      (name, c) ∈ Choice.named → c.form.takesValue → '=' ∉ written.toList → Names written name →
      c.Means given v → Spelled ⟨[written ++ "=" ++ given], name, c.target, v⟩
  | separate {written name given : String} {c : Choice} {v : Value} :
      (name, c) ∈ Choice.named → c.form.takesValue → Names written name → c.Means given v →
      Spelled ⟨[written, given], name, c.target, v⟩
  | bare {written name : String} {c : Choice} :
      (name, c) ∈ Choice.named → c.form.takesValue = false → Names written name →
      Spelled ⟨[written], name, c.target, .truth !saysNo name⟩

namespace Use

def saying (u : Use) : Saying := ⟨u.target, u.value⟩

theorem Valid.length_lt {u : Use} (h : u.Valid) (rest : List String) :
    rest.length < (u.texts ++ rest).length := by
  cases h with
  | attached => exact Nat.lt_succ_self _
  | separate => exact Nat.lt_add_of_pos_right Nat.two_pos
  | bare => exact Nat.lt_succ_self _

theorem Valid.spelled {u : Use} (h : u.Valid) : u.Spelled := by
  -- the options with short names only list the options
  have hlong {name : String} {c : Choice} (hc : (name, c) ∈ Choice.named)
      (hhelp : c.target ≠ .help) : name.toList.length ≠ 2 := by
    intro hshort
    exact hhelp (target_eq_help _ hc name (Choice.mem_names hc) hshort)
  cases h with
  | attached hlook htakes hmeans =>
    have hc := mem_named_of_lookOf hlook
    obtain ⟨written, rfl, hmark, hnames⟩ :=
      (isWritten_of_lookOf hlook).resolve_right (hlong hc (target_ne_help _ hc htakes))
    exact .attached hc htakes hmark hnames hmeans
  | separate hlook htakes hgiven hmeans =>
    have hc := mem_named_of_lookOf hlook
    exact .separate hc htakes
      ((isWritten_of_lookOf hlook).resolve_right (hlong hc (target_ne_help _ hc htakes))) hmeans
  | bare hlook htakes hhelp =>
    have hc := mem_named_of_lookOf hlook
    exact .bare hc htakes ((isWritten_of_lookOf hlook).resolve_right (hlong hc hhelp))

end Use

namespace Reading
variable {r r' : Reading} {waiting : List Argument}

/-- The reading where the arguments that waited have been placed. -/
def settled (r : Reading) (waiting : List Argument) : Reading :=
  if waiting.isEmpty then r else r.place waiting

/-- The reading with what some uses say. -/
def said (r : Reading) (uses : List Use) : Reading :=
  { r with sayings := r.sayings ++ uses.map Use.saying }

theorem said_nil (r : Reading) : r.said [] = r := by
  rw [said, List.map_nil, List.append_nil]

theorem said_cons (r : Reading) (u : Use) (uses : List Use) :
    (r.said [u]).said uses = r.said (u :: uses) := by
  simp only [said, List.map_cons, List.map_nil, List.append_assoc, List.singleton_append]

theorem say_eq_ok_iff {target : Target} {v : Value} : r.say target v = .ok r' ↔
    target ≠ .help ∧ r' = { r with sayings := r.sayings ++ [⟨target, v⟩] } := by
  unfold say
  split
  · next hhelp =>
    constructor
    · intro h
      cases h
    · intro h
      exact absurd hhelp h.1
  · next hhelp =>
    rw [Except.ok.injEq, eq_comm]
    exact (and_iff_right hhelp).symm

theorem take_eq_ok_iff {c : Choice} {text : String} : r.take c text = .ok r' ↔
    ∃ v, c.Means text v ∧ r.say c.target v = .ok r' := by
  unfold take Choice.Means
  by_cases hmark : text = "--"
  · simp only [if_pos hmark, exists_eq_left]
  · simp only [if_neg hmark, ← Choice.readValue_eq_ok_iff]
    cases c.readValue text with
    | error e =>
      constructor
      · intro h
        cases h
      · intro h
        obtain ⟨v, hv, -⟩ := h
        cases hv
    | ok v => simp only [Except.ok.injEq, exists_eq_left']

/-- Letters behind a short name lead to the list of options, if to anything. -/
theorem repeated_ne_ok {c : Choice} {name : String} (hc : (name, c) ∈ Choice.named)
    {letters : List Char} (hletters : letters ≠ []) : r.repeated c letters ≠ .ok r' := by
  intro h
  cases letters with
  | nil => exact hletters rfl
  | cons letter letters =>
    unfold repeated at h
    split at h
    · next hname =>
      have hhelp : c.target = .help :=
        target_eq_help _ hc _ (List.contains_iff_mem.1 hname) (by simp)
      clear hname hletters
      induction letters generalizing letter with
      | nil =>
        rw [repeated, say, if_pos hhelp] at h
        cases h
      | cons letter' letters ih =>
        unfold repeated at h
        split at h
        · exact ih letter' h
        · cases h
    · cases h

/-! ## Rules of reading -/

/-- How arguments are read. A use of an option places what waits, and so does what is not
understood. Behind the mark everything waits until the end. -/
inductive Reads : Reading → List Argument → List String → Reading → Prop where
  | done (r : Reading) (waiting : List Argument) : Reads r waiting [] (r.settled waiting)
  | mark (r : Reading) (waiting : List Argument) (rest : List String) :
      Reads r waiting ("--" :: rest)
        (r.settled (waiting ++ ⟨"--", .dashes⟩ :: rest.map fun text => ⟨text, .plain⟩))
  | plain {r r' : Reading} {waiting : List Argument} {text : String} {rest : List String} :
      lookOf text = .ok .plain → Reads r (waiting ++ [⟨text, .plain⟩]) rest r' →
      Reads r waiting (text :: rest) r'
  | unknown {r r' : Reading} {waiting : List Argument} {text : String} {rest : List String} :
      lookOf text = .ok .unknown →
      Reads { r.settled waiting with extras := (r.settled waiting).extras ++ [text] } [] rest r' →
      Reads r waiting (text :: rest) r'
  | use {r r' : Reading} {waiting : List Argument} {u : Use} {rest : List String} :
      u.Valid → Reads ((r.settled waiting).said [u]) [] rest r' →
      Reads r waiting (u.texts ++ rest) r'

/-- Plain arguments and marks wait for the end. -/
theorem readAll_waiting {group : List Argument}
    (h : ∀ a ∈ group, a.look = .plain ∨ a.look = .dashes) :
    ∀ waiting, r.readAll waiting group = .ok (r.settled (waiting ++ group)) := by
  induction group with
  | nil =>
    intro waiting
    rw [List.append_nil]
    rfl
  | cons a group ih =>
    intro waiting
    have hgroup := ih (fun b hb => h b (List.mem_cons_of_mem a hb)) (waiting ++ [a])
    rw [List.append_assoc, List.singleton_append] at hgroup
    rw [readAll.eq_2]
    rcases h a List.mem_cons_self with hlook | hlook
    · rw [hlook]
      exact hgroup
    · rw [hlook]
      exact hgroup

theorem readAll_mark (waiting : List Argument) (rest : List String) :
    r.readAll waiting (⟨"--", .dashes⟩ :: rest.map fun text => ⟨text, .plain⟩) =
      .ok (r.settled (waiting ++ ⟨"--", .dashes⟩ :: rest.map fun text => ⟨text, .plain⟩)) := by
  refine readAll_waiting ?_ waiting
  intro a ha
  rcases List.mem_cons.1 ha with rfl | ha
  · exact .inr rfl
  · obtain ⟨text, -, rfl⟩ := List.mem_map.1 ha
    exact .inl rfl

section Steps
variable {text name : String} {c : Choice} (r : Reading) (waiting others : List Argument)

theorem readAll_attached (value : String) :
    readAll r waiting (⟨text, .choice c name (some value)⟩ :: others) =
      match (r.settled waiting).attach c name value with
      | .ok r => readAll r [] others
      | .error stop => .error stop := by
  rw [readAll.eq_2]
  rfl

theorem readAll_separate (h : c.form.takesValue) :
    readAll r waiting (⟨text, .choice c name none⟩ :: others) =
      match others with
      | ⟨given, .plain⟩ :: others =>
        match (r.settled waiting).take c given with
        | .ok r => readAll r [] others
        | .error stop => .error stop
      | _ => .error (.usage (.noValue c)) := by
  rw [readAll.eq_2]
  exact if_pos h

theorem readAll_bare (h : c.form.takesValue = false) :
    readAll r waiting (⟨text, .choice c name none⟩ :: others) =
      match (r.settled waiting).say c.target (c.sayingOf name) with
      | .ok r => readAll r [] others
      | .error stop => .error stop := by
  rw [readAll.eq_2]
  exact if_neg (Bool.eq_false_iff.1 h)

end Steps

/-- The arguments of a use are read as what it says. -/
theorem readAll_use {u : Use} (hu : u.Valid) : ∃ args,
    (∀ rest others, arguments rest = .ok others →
      arguments (u.texts ++ rest) = .ok (args ++ others)) ∧
    ∀ r waiting others, readAll r waiting (args ++ others) =
      readAll ((r.settled waiting).said [u]) [] others := by
  cases hu with
  | @attached text name given c v hlook htakes hmeans =>
    have hhelp := target_ne_help _ (mem_named_of_lookOf hlook) htakes
    refine ⟨[⟨text, .choice c name (some given)⟩], ?_, ?_⟩
    · intro rest others hrest
      exact arguments_cons hlook hrest
    · intro r waiting others
      have htake : (r.settled waiting).attach c name given =
          .ok ((r.settled waiting).said [⟨[text], name, c.target, v⟩]) := by
        rw [attach, if_pos htakes]
        exact take_eq_ok_iff.2 ⟨v, hmeans, say_eq_ok_iff.2 ⟨hhelp, rfl⟩⟩
      rw [List.singleton_append, readAll_attached, htake]
  | @separate text name given c v hlook htakes hgiven hmeans =>
    have hhelp := target_ne_help _ (mem_named_of_lookOf hlook) htakes
    refine ⟨[⟨text, .choice c name none⟩, ⟨given, .plain⟩], ?_, ?_⟩
    · intro rest others hrest
      exact arguments_cons hlook (arguments_cons hgiven hrest)
    · intro r waiting others
      have htake : (r.settled waiting).take c given =
          .ok ((r.settled waiting).said [⟨[text, given], name, c.target, v⟩]) :=
        take_eq_ok_iff.2 ⟨v, hmeans, say_eq_ok_iff.2 ⟨hhelp, rfl⟩⟩
      rw [List.cons_append, List.singleton_append, readAll_separate _ _ _ htakes]
      dsimp only
      rw [htake]
  | @bare text name c hlook htakes hhelp =>
    refine ⟨[⟨text, .choice c name none⟩], ?_, ?_⟩
    · intro rest others hrest
      exact arguments_cons hlook hrest
    · intro r waiting others
      have hsaying := sayingOf_eq (mem_named_of_lookOf hlook) htakes hhelp
      have hsay : (r.settled waiting).say c.target (c.sayingOf name) =
          .ok ((r.settled waiting).said [⟨[text], name, c.target, .truth !saysNo name⟩]) :=
        say_eq_ok_iff.2 ⟨hhelp, by rw [hsaying]; rfl⟩
      rw [List.singleton_append, readAll_bare _ _ _ htakes, hsay]

/-- Arguments that are read begin with a use of an option, and what is behind it is read
on. -/
def Begins (r : Reading) (waiting : List Argument) (args : List String) (r' : Reading) : Prop :=
  ∃ (u : Use) (rest : List String) (marked : List Argument), u.Valid ∧ args = u.texts ++ rest ∧
    arguments rest = .ok marked ∧ readAll ((r.settled waiting).said [u]) [] marked = .ok r'

section Begins
variable {text name : String} {c : Choice} {rest : List String} {others : List Argument}

/-- An option that is read with a value of its own takes it: no option without a value has
letters behind its name. -/
theorem begins_attached {given : String} (hlook : lookOf text = .ok (.choice c name (some given)))
    (hrest : arguments rest = .ok others)
    (h : readAll r waiting (⟨text, .choice c name (some given)⟩ :: others) = .ok r') :
    Begins r waiting (text :: rest) r' := by
  rw [readAll_attached] at h
  cases htakes : c.form.takesValue with
  | true =>
    rw [attach, if_pos htakes] at h
    split at h
    · next r₁ htake =>
      obtain ⟨v, hmeans, hsay⟩ := take_eq_ok_iff.1 htake
      obtain ⟨-, rfl⟩ := say_eq_ok_iff.1 hsay
      exact ⟨⟨[text], name, c.target, v⟩, rest, others, .attached hlook htakes hmeans, rfl, hrest,
        h⟩
    · cases h
  | false =>
    rw [attach, if_neg (Bool.eq_false_iff.1 htakes)] at h
    split at h
    · next r₁ hattach =>
      split at hattach
      · cases hattach
      · next hletters =>
        have hne : given.toList ≠ [] := by
          intro hnil
          have hempty : given.isEmpty = true := by simp [String.toList_eq_nil_iff.1 hnil]
          simp [hempty] at hletters
        exact absurd hattach (repeated_ne_ok (mem_named_of_lookOf hlook) hne)
    · cases h

/-- An option that takes a value takes the next argument, which is plain. -/
theorem begins_separate (htakes : c.form.takesValue)
    (hlook : lookOf text = .ok (.choice c name none)) (hrest : arguments rest = .ok others)
    (h : readAll r waiting (⟨text, .choice c name none⟩ :: others) = .ok r') :
    Begins r waiting (text :: rest) r' := by
  rw [readAll_separate _ _ _ htakes] at h
  split at h
  · next given others =>
    split at h
    · next r₁ htake =>
      obtain ⟨v, hmeans, hsay⟩ := take_eq_ok_iff.1 htake
      obtain ⟨-, rfl⟩ := say_eq_ok_iff.1 hsay
      cases rest with
      | nil => cases hrest
      | cons given' rest' =>
        by_cases hmark : given' = "--"
        · -- the mark is not plain
          rw [hmark, arguments_mark] at hrest
          cases hrest
        · obtain ⟨look, others', hgiven, hrest', heq⟩ := arguments_cons_eq_ok hmark hrest
          cases heq
          exact ⟨⟨[text, given], name, c.target, v⟩, rest', _,
            .separate hlook htakes hgiven hmeans, rfl, hrest', h⟩
    · cases h
  · cases h

theorem begins_bare (htakes : c.form.takesValue = false)
    (hlook : lookOf text = .ok (.choice c name none)) (hrest : arguments rest = .ok others)
    (h : readAll r waiting (⟨text, .choice c name none⟩ :: others) = .ok r') :
    Begins r waiting (text :: rest) r' := by
  rw [readAll_bare _ _ _ htakes] at h
  split at h
  · next r₁ hsay =>
    obtain ⟨hhelp, rfl⟩ := say_eq_ok_iff.1 hsay
    rw [sayingOf_eq (mem_named_of_lookOf hlook) htakes hhelp] at h
    exact ⟨⟨[text], name, c.target, .truth !saysNo name⟩, rest, others,
      .bare hlook htakes hhelp, rfl, hrest, h⟩
  · cases h

/-- An option that is read is the beginning of a use. -/
theorem begins_of_readAll {value : Option String}
    (hlook : lookOf text = .ok (.choice c name value)) (hrest : arguments rest = .ok others)
    (h : readAll r waiting (⟨text, .choice c name value⟩ :: others) = .ok r') :
    Begins r waiting (text :: rest) r' := by
  cases value with
  | some given => exact begins_attached hlook hrest h
  | none =>
    cases htakes : c.form.takesValue with
    | true => exact begins_separate htakes hlook hrest h
    | false => exact begins_bare htakes hlook hrest h

end Begins

theorem exists_readAll_of_reads {args : List String} (h : Reads r waiting args r') :
    ∃ marked, arguments args = .ok marked ∧ readAll r waiting marked = .ok r' := by
  induction h with
  | done r waiting => exact ⟨[], rfl, rfl⟩
  | mark r waiting rest => exact ⟨_, arguments_mark rest, readAll_mark waiting rest⟩
  | @plain r r' waiting text rest hlook _ ih =>
    obtain ⟨marked, hmarked, hread⟩ := ih
    refine ⟨_, arguments_cons hlook hmarked, ?_⟩
    rw [readAll.eq_2]
    exact hread
  | @unknown r r' waiting text rest hlook _ ih =>
    obtain ⟨marked, hmarked, hread⟩ := ih
    refine ⟨_, arguments_cons hlook hmarked, ?_⟩
    rw [readAll.eq_2]
    exact hread
  | @use r r' waiting u rest hu _ ih =>
    obtain ⟨marked, hmarked, hread⟩ := ih
    obtain ⟨args, hargs, hstep⟩ := readAll_use hu
    exact ⟨_, hargs rest marked hmarked, (hstep r waiting marked).trans hread⟩

theorem reads_of_readAll {args : List String} {marked : List Argument}
    (hmarked : arguments args = .ok marked) (hread : readAll r waiting marked = .ok r') :
    Reads r waiting args r' := by
  -- a use takes one argument or two, so the induction is on their number
  induction hlength : args.length using Nat.strong_induction_on
    generalizing r waiting args marked with
  | h n ih =>
    subst hlength
    cases args with
    | nil =>
      cases hmarked
      cases hread
      exact .done r waiting
    | cons text rest =>
      by_cases hmark : text = "--"
      · subst hmark
        rw [arguments_mark] at hmarked
        cases hmarked
        rw [readAll_mark] at hread
        cases hread
        exact .mark r waiting rest
      · obtain ⟨look, others, hlook, hothers, rfl⟩ := arguments_cons_eq_ok hmark hmarked
        have hlt : rest.length < (text :: rest).length := Nat.lt_succ_self _
        cases look with
        | plain =>
          rw [readAll.eq_2] at hread
          exact .plain hlook (ih _ hlt hothers hread rfl)
        | dashes => exact absurd hlook lookOf_ne_dashes
        | unknown =>
          rw [readAll.eq_2] at hread
          exact .unknown hlook (ih _ hlt hothers hread rfl)
        | choice c name value =>
          obtain ⟨u, rest', others', hu, heq, hrest', hstep⟩ :=
            begins_of_readAll hlook hothers hread
          rw [heq] at ih ⊢
          exact .use hu (ih _ (hu.length_lt rest') hrest' hstep rfl)

/-- The rules say how arguments are read. -/
theorem reads_iff {args : List String} : Reads r waiting args r' ↔
    ∃ marked, arguments args = .ok marked ∧ readAll r waiting marked = .ok r' := by
  constructor
  · exact exists_readAll_of_reads
  · intro h
    obtain ⟨marked, hmarked, hread⟩ := h
    exact reads_of_readAll hmarked hread

end Reading
end SkySources.CommandLine
