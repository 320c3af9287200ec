import Mathlib
import SkySources.Proofs.CommandLine.Reads
import SkySources.Proofs.Settings.Schema

/-!
# Options of settings

Every setting has an option of its own, which has the name of the setting, with dashes. An
option that takes no value says yes by that name, and no by the name that begins with
`--no-`. What an option says of a setting follows the rule of the setting, so that the
setting can be changed to it, unless the option is given the mark for a value, which is
nothing.

What is proved:
  1. `Form.holds_of_suits`, `value_holds`: what an option says follows a rule;
  2. `Valid.value_of_saysNo`, `Valid.eq_of_value`: how an option says yes and no;
  3. `sets_search`, `sets_output`: the options of both sections of settings;
  4. `Valid.isOf_iff`, `Valid.value_switch`: the options of one section.
-/

namespace SkySources.CommandLine

/-! ## Options of settings -/

/-- The name of a setting with dashes. -/
def dashed (setting : String) : List Char :=
  setting.toList.map fun c => if c = '_' then '-' else c

/-- The option of a setting. -/
def flagOf (setting : String) : String := String.ofList ("--".toList ++ dashed setting)

/-- The name by which the option of a setting says no. -/
def noFlagOf (setting : String) : String := String.ofList ("--no-".toList ++ dashed setting)

/-- A use of the option of a setting. -/
def Use.IsOf (u : Use) (setting : String) : Prop :=
  u.option = flagOf setting ∨ u.option = noFlagOf setting

instance (u : Use) (setting : String) : Decidable (u.IsOf setting) :=
  inferInstanceAs (Decidable (_ ∨ _))

theorem flags_configFile : ∀ entry ∈ Choice.named,
    (entry.1 = flagOf "config_file" ∨ entry.1 = noFlagOf "config_file" ↔
      entry.2.target = .configFile) := by
  decide +kernel

namespace Use
variable {u : Use}

theorem Valid.mem_named (h : u.Valid) :
    ∃ c, (u.option, c) ∈ Choice.named ∧ c.target = u.target := by
  cases h with
  | attached hlook => exact ⟨_, mem_named_of_lookOf hlook, rfl⟩
  | separate hlook => exact ⟨_, mem_named_of_lookOf hlook, rfl⟩
  | bare hlook => exact ⟨_, mem_named_of_lookOf hlook, rfl⟩

theorem Valid.isOf_configFile_iff (h : u.Valid) :
    u.IsOf "config_file" ↔ u.target = .configFile := by
  obtain ⟨c, hc, htarget⟩ := h.mem_named
  rw [← htarget]
  exact flags_configFile _ hc

end Use

/-! ## What options say -/

/-- What a form of an option gives. -/
def Form.Gives : Form → Value → Prop
  | .whole _, v => ∃ n, v = .whole n
  | .float, v => ∃ x, v = .float x
  | .word choices, v => ∃ s, v = .text s ∧ (choices = [] ∨ s ∈ choices)
  | .yes, v | .yesOrNo, v => ∃ b, v = .truth b

/-- Whether a rule admits what a form gives. -/
def Form.suits (form : Form) (r : Rule) : Bool :=
  match form, r.kinds, r.choices with
  | .whole _, .whole :: _, none => true
  | .float, .float :: _, none => true
  | .word _, [.text], none => true
  | .word choices, [.text], some names => choices = names && !names.isEmpty
  | .yes, [.truth], none | .yesOrNo, [.truth], none => true
  | _, _, _ => false

theorem Form.holds_of_suits {form : Form} {r : Rule} {v : Value} (h : form.suits r)
    (hv : form.Gives v) : r.Holds v := by
  obtain ⟨name, kinds, choices⟩ := r
  unfold suits at h
  dsimp only at h
  split at h
  · obtain ⟨n, rfl⟩ := hv
    exact Rule.holds_iff.2 rfl
  · obtain ⟨x, rfl⟩ := hv
    exact Rule.holds_iff.2 rfl
  · obtain ⟨s, rfl, -⟩ := hv
    exact Rule.holds_iff.2 rfl
  · obtain ⟨s, rfl, hs⟩ := hv
    simp only [Bool.and_eq_true, decide_eq_true_eq, Bool.not_eq_true', List.isEmpty_eq_false_iff]
      at h
    obtain ⟨rfl, hne⟩ := h
    refine ⟨rfl, ?_⟩
    rintro _ ⟨⟩
    exact if_pos (List.contains_iff_mem.2 (hs.resolve_left hne))
  · obtain ⟨b, rfl⟩ := hv
    exact Rule.holds_iff.2 rfl
  · obtain ⟨b, rfl⟩ := hv
    exact Rule.holds_iff.2 rfl
  · cases h

theorem Form.takesValue_of_gives {form : Form} {b : Bool} (h : form.Gives (.truth b)) :
    form.takesValue = false := by
  cases form with
  | whole choices =>
    obtain ⟨n, hn⟩ := h
    cases hn
  | float =>
    obtain ⟨x, hx⟩ := h
    cases hx
  | word choices =>
    obtain ⟨s, hs, -⟩ := h
    cases hs
  | yes => rfl
  | yesOrNo => rfl

theorem Form.Reads.gives {form : Form} {text : String} {v : Value} (h : form.Reads text v) :
    form.Gives v := by
  cases h with
  | whole => exact ⟨_, rfl⟩
  | float => exact ⟨_, rfl⟩
  | word hmem => exact ⟨_, rfl, hmem⟩

namespace Use
variable {u : Use}

theorem takesValue_of_saysNo : ∀ entry ∈ Choice.named, saysNo entry.1 = true →
    entry.2.form.takesValue = false := by
  decide +kernel

theorem Valid.value_of_saysNo (h : u.Valid) (hno : saysNo u.option = true) :
    u.value = .truth false := by
  cases h with
  | attached hlook htakes =>
    rw [takesValue_of_saysNo _ (mem_named_of_lookOf hlook) hno] at htakes
    cases htakes
  | separate hlook htakes =>
    rw [takesValue_of_saysNo _ (mem_named_of_lookOf hlook) hno] at htakes
    cases htakes
  | bare hlook =>
    change saysNo _ = true at hno
    rw [hno]
    rfl

/-- A truth value comes from an option without a value. -/
theorem Valid.eq_of_value (h : u.Valid) {b : Bool} (hb : u.value = .truth b) :
    b = !saysNo u.option := by
  have hmeans {c : Choice} {given : String} (htakes : c.form.takesValue)
      (h : c.Means given (.truth b)) : False := by
    unfold Choice.Means at h
    split at h
    · cases h
    · rw [Form.takesValue_of_gives h.gives] at htakes
      cases htakes
  cases h with
  | attached _ htakes hv =>
    cases hb
    exact (hmeans htakes hv).elim
  | separate _ htakes _ hv =>
    cases hb
    exact (hmeans htakes hv).elim
  | bare hlook =>
    cases hb
    rfl

end Use

/-- What an option says of a setting follows the rule of the setting, unless it says
nothing. -/
theorem value_holds {u : Use} (hu : u.Valid) {r : Rule}
    (hsuits : ∀ entry ∈ Choice.named, entry.2.target = u.target → entry.2.form.suits r) :
    u.value = .list [] ∨ r.Holds u.value := by
  have hmeans {c : Choice} {given : String} {v : Value} (h : c.Means given v)
      (hc : c.form.suits r) : v = .list [] ∨ r.Holds v := by
    unfold Choice.Means at h
    split at h
    · exact .inl h
    · exact .inr (Form.holds_of_suits hc h.gives)
  cases hu with
  | attached hlook _ hv => exact hmeans hv (hsuits _ (mem_named_of_lookOf hlook) rfl)
  | separate hlook _ _ hv => exact hmeans hv (hsuits _ (mem_named_of_lookOf hlook) rfl)
  | @bare text name c hlook htakes =>
    refine .inr (Form.holds_of_suits (hsuits _ (mem_named_of_lookOf hlook) rfl) ?_)
    show c.form.Gives _
    cases hform : c.form with
    | yes => exact ⟨_, rfl⟩
    | yesOrNo => exact ⟨_, rfl⟩
    | _ =>
      rw [hform] at htakes
      cases htakes

/-! ## Groups of options -/

/-- Options of one group set the settings of one section. Each setting has an option of its
own, and what that may say follows the rule of the setting, unless it is nothing. -/
structure Sets {α : Type} (S : Schema α) (target : String → Target) : Prop where
  flags : ∀ entry ∈ Choice.named, ∀ setting ∈ S.names,
    (entry.1 = flagOf setting ∨ entry.1 = noFlagOf setting ↔ entry.2.target = target setting)
  suits : ∀ entry ∈ Choice.named, ∀ r ∈ S.rules,
    entry.2.target = target r.name → entry.2.form.suits r
  nothing : ∀ r ∈ S.rules, (Value.ofKinds r.name (.list []) r.kinds).isOk = false
  yes : ∀ setting ∈ S.names, saysNo (flagOf setting) = false
  no : ∀ setting ∈ S.names, saysNo (noFlagOf setting) = true

theorem sets_search : Sets SearchSettings.schema .search where
  flags := by decide +kernel
  suits := by decide +kernel
  nothing := by decide +kernel
  yes := by decide +kernel
  no := by decide +kernel

theorem sets_output : Sets ExportSettings.schema .output where
  flags := by decide +kernel
  suits := by decide +kernel
  nothing := by decide +kernel
  yes := by decide +kernel
  no := by decide +kernel

section Groups
variable {α : Type} {S : Schema α} {target : String → Target} (hS : Sets S target)
include hS

theorem Use.Valid.isOf_iff {u : Use} (h : u.Valid) {setting : String} (hs : setting ∈ S.names) :
    u.IsOf setting ↔ u.target = target setting := by
  obtain ⟨c, hc, htarget⟩ := h.mem_named
  rw [← htarget]
  exact hS.flags _ hc setting hs

/-- The option of a setting says no by the name for that, and if it says yes or no by the
other one, it says yes. -/
theorem Use.Valid.value_switch {u : Use} (h : u.Valid) {setting : String}
    (hs : setting ∈ S.names) : (u.option = noFlagOf setting → u.value = .truth false) ∧
      ∀ b, u.option = flagOf setting → u.value = .truth b → b = true := by
  constructor
  · intro hoption
    exact h.value_of_saysNo (hoption ▸ hS.no setting hs)
  · intro b hoption hvalue
    rw [h.eq_of_value hvalue, hoption, hS.yes setting hs]
    rfl

end Groups

end SkySources.CommandLine
