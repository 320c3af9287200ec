import Mathlib
import SkySources.Proofs.CommandLine.Reads

/-!
# Layouts of command lines

A command line that is understood consists of uses of options, a group of files, and more
uses of options. There may be a mark in the group. From there on all arguments are files,
so that no option follows.

What is proved:
  1. `parse_layout`: a layout is understood, and as what;
  2. `uses_of_reads`, `group_of_reads`, `layout_of_reads`: what is understood behind the
     files, within their group, and from the start;
  3. `parse_eq_ok_iff`: what is understood is a layout.
-/

namespace SkySources.CommandLine

/-- Uses of options and a group of files between them. -/
structure Layout where
  before : List Use
  /-- The files in front of the mark. -/
  plain : List String
  /-- The files behind the mark, if there is one. -/
  marked : Option (List String)
  after : List Use

namespace Layout

def uses (L : Layout) : List Use := L.before ++ L.after

def files (L : Layout) : List String := L.plain ++ L.marked.getD []

/-- The arguments of the group of files. -/
def group (L : Layout) : List String := L.plain ++ (L.marked.map ("--" :: ·)).getD []

/-- The arguments of the command line. -/
def args (L : Layout) : List String :=
  L.before.flatMap Use.texts ++ (L.group ++ L.after.flatMap Use.texts)

/-- The parts of a layout are what they should be. -/
structure Valid (L : Layout) : Prop where
  uses : ∀ u ∈ L.uses, u.Valid
  plain : ∀ text ∈ L.plain, lookOf text = .ok .plain
  files : L.files ≠ []
  last : L.marked.isSome → L.after = []

end Layout

def plainArguments (texts : List String) : List Argument := texts.map fun text => ⟨text, .plain⟩

/-- The mark, if there is one, and plain arguments. -/
def markedArguments : Option (List String) → List Argument
  | none => []
  | some rest => ⟨"--", .dashes⟩ :: plainArguments rest

theorem map_text_plainArguments (texts : List String) :
    (plainArguments texts).map (·.text) = texts := by
  rw [plainArguments, List.map_map]
  exact List.map_id texts

theorem mark_notMem {texts : List String} (h : ∀ text ∈ texts, lookOf text = .ok .plain) :
    "--" ∉ texts := by
  intro hmem
  exact lookOf_mark _ (h _ hmem)

namespace Reading
variable {r r' : Reading} {waiting : List Argument}

/-! ## Groups -/

/-- A group with a file is the group of files. -/
theorem settled_group {plain : List String} (marked : Option (List String))
    (hr : r.files = none) (hplain : "--" ∉ plain) (hfiles : plain ++ marked.getD [] ≠ []) :
    r.settled (plainArguments plain ++ markedArguments marked) =
      { r with files := some (plain ++ marked.getD []) } := by
  have htexts : ((plainArguments plain ++ markedArguments marked).map (·.text)).erase "--" =
      plain ++ marked.getD [] := by
    rw [List.map_append, map_text_plainArguments, List.erase_append_right _ hplain]
    cases marked with
    | none => rfl
    | some rest =>
      show plain ++ ("--" :: (plainArguments rest).map (·.text)).erase "--" = plain ++ rest
      rw [List.erase_cons_head, map_text_plainArguments]
  have hany : (plainArguments plain ++ markedArguments marked).any (·.look = .plain) = true := by
    rw [List.any_eq_true]
    cases plain with
    | cons text texts => exact ⟨_, List.mem_cons_self, by simp⟩
    | nil =>
      cases marked with
      | none => exact absurd rfl hfiles
      | some rest =>
        cases rest with
        | nil => exact absurd rfl hfiles
        | cons text texts =>
          exact ⟨_, List.mem_cons_of_mem _ List.mem_cons_self, by simp⟩
  have hne : (plainArguments plain ++ markedArguments marked).isEmpty = false := by
    cases hgroup : plainArguments plain ++ markedArguments marked with
    | nil =>
      rw [hgroup] at hany
      cases hany
    | cons a group => rfl
  rw [settled, hne]
  show r.place _ = _
  rw [place, if_pos (by rw [hr, hany]; rfl), htexts]

/-- If nothing is left over, no arguments wait once there are files. -/
theorem extras_of_settled (h : (r.settled waiting).extras = []) :
    r.extras = [] ∧ (r.files.isSome → waiting = []) := by
  cases waiting with
  | nil => exact ⟨h, fun _ => rfl⟩
  | cons a rest =>
    change (r.place (a :: rest)).extras = [] at h
    unfold place at h
    dsimp only at h
    split at h
    · next hfiles =>
      rw [Bool.and_eq_true, Option.isNone_iff_eq_none] at hfiles
      refine ⟨h, ?_⟩
      rw [hfiles.1]
      intro hsome
      cases hsome
    · rw [List.append_eq_nil_iff] at h
      cases h.2

theorem extras_of_reads {args : List String} (h : Reads r waiting args r') (hr' : r'.extras = []) :
    r.extras = [] ∧ (r.files.isSome → waiting = []) := by
  induction h with
  | done r waiting => exact extras_of_settled hr'
  | mark r waiting rest =>
    obtain ⟨hextras, hwaiting⟩ := extras_of_settled hr'
    exact ⟨hextras, fun hfiles => (List.append_eq_nil_iff.1 (hwaiting hfiles)).1⟩
  | plain _ _ ih =>
    obtain ⟨hextras, hwaiting⟩ := ih hr'
    exact ⟨hextras, fun hfiles => (List.append_eq_nil_iff.1 (hwaiting hfiles)).1⟩
  | unknown _ _ ih =>
    obtain ⟨hextras, -⟩ := ih hr'
    exact absurd hextras (List.append_ne_nil_of_right_ne_nil _ (List.cons_ne_nil _ _))
  | use _ _ ih => exact extras_of_settled (ih hr').1

/-! ## Layouts are understood -/

theorem reads_uses {uses : List Use} (h : ∀ u ∈ uses, u.Valid) {rest : List String} :
    ∀ {r : Reading}, Reads (r.said uses) [] rest r' →
      Reads r [] (uses.flatMap Use.texts ++ rest) r' := by
  induction uses with
  | nil =>
    intro r hrest
    rwa [said_nil] at hrest
  | cons u uses ih =>
    intro r hrest
    rw [List.flatMap_cons, List.append_assoc]
    rw [← said_cons] at hrest
    exact .use (h u List.mem_cons_self) (ih (fun v hv => h v (List.mem_cons_of_mem u hv)) hrest)

theorem reads_last_uses {uses : List Use} (h : ∀ u ∈ uses, u.Valid) :
    Reads r waiting (uses.flatMap Use.texts) ((r.settled waiting).said uses) := by
  cases uses with
  | nil =>
    rw [said_nil]
    exact .done r waiting
  | cons u uses =>
    rw [← said_cons]
    have huses := reads_uses (fun v hv => h v (List.mem_cons_of_mem u hv))
      (.done (((r.settled waiting).said [u]).said uses) [])
    rw [List.append_nil] at huses
    exact .use (h u List.mem_cons_self) huses

theorem reads_plain {texts : List String} (h : ∀ text ∈ texts, lookOf text = .ok .plain)
    {rest : List String} : ∀ {waiting : List Argument},
      Reads r (waiting ++ plainArguments texts) rest r' → Reads r waiting (texts ++ rest) r' := by
  induction texts with
  | nil =>
    intro waiting hrest
    rwa [plainArguments, List.map_nil, List.append_nil] at hrest
  | cons text texts ih =>
    intro waiting hrest
    rw [plainArguments, List.map_cons, List.append_cons] at hrest
    exact .plain (h text List.mem_cons_self)
      (ih (fun t ht => h t (List.mem_cons_of_mem text ht)) hrest)

/-! ## What is understood is a layout -/

/-- Behind the files there are only uses of options. -/
theorem uses_of_reads {args : List String} (h : Reads r waiting args r') (hwaiting : waiting = [])
    (hfiles : r.files.isSome) (hr' : r'.extras = []) :
    ∃ uses : List Use, (∀ u ∈ uses, u.Valid) ∧ args = uses.flatMap Use.texts ∧
      r' = r.said uses := by
  induction h with
  | done r waiting =>
    rw [hwaiting]
    exact ⟨[], List.forall_mem_nil _, rfl, (said_nil r).symm⟩
  | mark r waiting rest =>
    have hnil := (extras_of_settled hr').2 hfiles
    exact absurd (List.append_eq_nil_iff.1 hnil).2 (List.cons_ne_nil _ _)
  | plain _ hread _ =>
    have hnil := (extras_of_reads hread hr').2 hfiles
    exact absurd (List.append_eq_nil_iff.1 hnil).2 (List.cons_ne_nil _ _)
  | unknown _ hread _ =>
    have hnil := (extras_of_reads hread hr').1
    exact absurd hnil (List.append_ne_nil_of_right_ne_nil _ (List.cons_ne_nil _ _))
  | @use r r' waiting u rest hu _ ih =>
    subst hwaiting
    obtain ⟨uses, huses, rfl, rfl⟩ := ih rfl hfiles hr'
    exact ⟨u :: uses, List.forall_mem_cons.2 ⟨hu, huses⟩, rfl, said_cons r u uses⟩

/-- Within the group of files there are more of them up to its end, and uses of options
behind it. -/
theorem group_of_reads {args : List String} (h : Reads r waiting args r') {front : List String}
    (hwaiting : waiting = plainArguments front) (hfront : front ≠ [])
    (hlook : ∀ text ∈ front, lookOf text = .ok .plain) (hfiles : r.files = none)
    (hr' : r'.extras = []) : ∃ L : Layout, L.before = [] ∧ L.Valid ∧ front ++ args = L.args ∧
      r' = { r with files := some L.files }.said L.after := by
  -- what waits is the front of the group, and it grows until the group ends
  induction h generalizing front with
  | done r waiting =>
    subst hwaiting
    have hsettled := settled_group none hfiles (mark_notMem hlook)
      (List.append_ne_nil_of_left_ne_nil hfront _)
    refine ⟨⟨[], front, none, []⟩, rfl, ⟨List.forall_mem_nil _, hlook,
      List.append_ne_nil_of_left_ne_nil hfront _, ?_⟩, ?_, ?_⟩
    · intro hsome
      cases hsome
    · simp [Layout.args, Layout.group]
    · rw [said_nil, ← List.append_nil (plainArguments front)]
      exact hsettled
  | mark r waiting rest =>
    subst hwaiting
    have hsettled := settled_group (some rest) hfiles (mark_notMem hlook)
      (List.append_ne_nil_of_left_ne_nil hfront _)
    refine ⟨⟨[], front, some rest, []⟩, rfl, ⟨List.forall_mem_nil _, hlook,
      List.append_ne_nil_of_left_ne_nil hfront _, ?_⟩, ?_, ?_⟩
    · exact fun _ => rfl
    · simp [Layout.args, Layout.group]
    · rw [said_nil]
      exact hsettled
  | @plain r r' waiting text rest htext _ ih =>
    subst hwaiting
    have happend : plainArguments front ++ [⟨text, .plain⟩] = plainArguments (front ++ [text]) := by
      rw [plainArguments, plainArguments, List.map_append]
      rfl
    obtain ⟨L, hbefore, hvalid, hargs, hread⟩ := ih happend
      (List.append_ne_nil_of_left_ne_nil hfront _)
      (List.forall_mem_append.2 ⟨hlook, List.forall_mem_singleton.2 htext⟩) hfiles hr'
    exact ⟨L, hbefore, hvalid, by rw [← hargs, List.append_cons], hread⟩
  | unknown _ hread _ =>
    have hnil := (extras_of_reads hread hr').1
    exact absurd hnil (List.append_ne_nil_of_right_ne_nil _ (List.cons_ne_nil _ _))
  | @use r r' waiting u rest hu hread _ =>
    subst hwaiting
    have hsettled := settled_group none hfiles (mark_notMem hlook)
      (List.append_ne_nil_of_left_ne_nil hfront _)
    rw [← List.append_nil (plainArguments front)] at hread
    change Reads ((r.settled (plainArguments front ++ markedArguments none)).said [u]) [] rest r'
      at hread
    -- the use ends the group, and only uses can follow
    rw [hsettled] at hread
    obtain ⟨uses, huses, rfl, rfl⟩ := uses_of_reads hread rfl rfl hr'
    refine ⟨⟨[], front, none, u :: uses⟩, rfl, ⟨List.forall_mem_cons.2 ⟨hu, huses⟩, hlook,
      List.append_ne_nil_of_left_ne_nil hfront _, ?_⟩, ?_, ?_⟩
    · intro hsome
      cases hsome
    · simp [Layout.args, Layout.group]
    · exact said_cons _ u uses

theorem layout_of_reads {args : List String} (h : Reads r waiting args r') (hwaiting : waiting = [])
    (hfiles : r.files = none) (hr' : r'.extras = []) (hfiles' : r'.files.isSome) :
    ∃ L : Layout, L.Valid ∧ args = L.args ∧
      r' = { r with files := some L.files }.said L.uses := by
  induction h with
  | done r waiting =>
    rw [hwaiting] at hfiles'
    change r.files.isSome at hfiles'
    rw [hfiles] at hfiles'
    cases hfiles'
  | mark r waiting rest =>
    subst hwaiting
    cases rest with
    | nil =>
      change (r.place [⟨"--", .dashes⟩]).extras = [] at hr'
      unfold place at hr'
      rw [hfiles] at hr'
      exact absurd hr' (List.append_ne_nil_of_right_ne_nil _ (List.cons_ne_nil _ _))
    | cons text texts =>
      have hne : ([] : List String) ++ (some (text :: texts)).getD [] ≠ [] := List.cons_ne_nil _ _
      refine ⟨⟨[], [], some (text :: texts), []⟩, ⟨List.forall_mem_nil _, List.forall_mem_nil _,
        hne, fun _ => rfl⟩, ?_, ?_⟩
      · simp [Layout.args, Layout.group]
      · have hsettled := settled_group _ hfiles List.not_mem_nil hne
        rw [Layout.uses, List.append_nil, said_nil]
        exact hsettled
  | @plain r r' waiting text rest htext hread _ =>
    subst hwaiting
    obtain ⟨L, hbefore, hvalid, hargs, hr⟩ := group_of_reads hread (rfl : _ = plainArguments [text])
      (List.cons_ne_nil _ _) (List.forall_mem_singleton.2 htext) hfiles hr'
    refine ⟨L, hvalid, hargs, ?_⟩
    rw [Layout.uses, hbefore, List.nil_append]
    exact hr
  | unknown _ hread _ =>
    have hnil := (extras_of_reads hread hr').1
    exact absurd hnil (List.append_ne_nil_of_right_ne_nil _ (List.cons_ne_nil _ _))
  | @use r r' waiting u rest hu _ ih =>
    subst hwaiting
    obtain ⟨L, hvalid, rfl, hr⟩ := ih rfl hfiles hr' hfiles'
    refine ⟨{ L with before := u :: L.before }, ⟨List.forall_mem_cons.2 ⟨hu, hvalid.uses⟩,
      hvalid.plain, hvalid.files, hvalid.last⟩, ?_, ?_⟩
    · simp [Layout.args, Layout.group]
    · rw [hr]
      exact said_cons { r with files := some L.files } u L.uses

end Reading

/-- A layout asks for what its uses say and for its files. -/
theorem parse_layout {L : Layout} (h : L.Valid) :
    parse L.args = .ok ⟨L.uses.map Use.saying, L.files⟩ := by
  have huses := List.forall_mem_append.1 h.uses
  have hsettled := Reading.settled_group (r := Reading.empty.said L.before) L.marked rfl
    (mark_notMem h.plain) h.files
  have hreads : Reading.Reads .empty [] L.args
      (Reading.said { Reading.empty.said L.before with files := some L.files } L.after) := by
    refine Reading.reads_uses huses.1 ?_
    rw [Layout.group, List.append_assoc]
    refine Reading.reads_plain h.plain ?_
    change (Reading.empty.said L.before).settled (_ ++ _) =
      { Reading.empty.said L.before with files := some L.files } at hsettled
    rw [← hsettled]
    cases hmarked : L.marked with
    | none =>
      rw [markedArguments, List.append_nil]
      exact Reading.reads_last_uses huses.2
    | some rest =>
      rw [h.last (by rw [hmarked]; rfl), Reading.said_nil, List.flatMap_nil, List.append_nil]
      exact .mark (Reading.empty.said L.before) (plainArguments L.plain) rest
  obtain ⟨marked, hmarked, hread⟩ := Reading.reads_iff.1 hreads
  unfold parse
  rw [hmarked]
  dsimp only
  rw [hread]
  show Except.ok _ = _
  rw [Layout.uses, List.map_append]
  rfl

/-- What is understood is a layout, and nothing else is. -/
theorem parse_eq_ok_iff {args : List String} {request : Request} : parse args = .ok request ↔
    ∃ L : Layout, L.Valid ∧ L.args = args ∧ request = ⟨L.uses.map Use.saying, L.files⟩ := by
  constructor
  · intro h
    unfold parse at h
    split at h
    · cases h
    · next marked hmarked =>
      split at h
      · cases h
      · next r hread =>
        unfold Reading.request at h
        split at h
        · cases h
        · next files hfiles =>
          split at h
          · next hextras =>
            cases h
            obtain ⟨L, hvalid, hargs, rfl⟩ := Reading.layout_of_reads
              (Reading.reads_iff.2 ⟨marked, hmarked, hread⟩) rfl rfl (List.isEmpty_iff.1 hextras)
              (by rw [hfiles]; rfl)
            refine ⟨L, hvalid, hargs.symm, ?_⟩
            cases hfiles
            rfl
          · cases h
  · rintro ⟨L, hvalid, rfl, rfl⟩
    exact parse_layout hvalid

end SkySources.CommandLine
