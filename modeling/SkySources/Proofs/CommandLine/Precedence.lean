import Mathlib
import SkySources.Proofs.CommandLine.Layout
import SkySources.Proofs.CommandLine.Options
import SkySources.Proofs.Settings.Document
import SkySources.Proofs.Store

/-!
# Precedence of settings

The settings of a run have three sources. What the command line says of a setting, by the
last use of the setting's own option, counts most; it counts whatever it is, be it zero,
no, missing or empty. Next comes the file of settings, and last the default.

So a section of settings depends on the options of its own settings and on the file, and
the order of options does not matter as long as those that set the same stay in order.

What is proved:
  1. `Reordered.valid`: options can be put in another order;
  2. `settings_eq_ok_iff`: what a request leads to;
  3. `exists_changed_iff`, `value?_changed`: what the options of one section lead to;
  4. `leads_of_settings`, `section_congr`: what a section of settings depends on;
  5. `settings_precedence`: all of it, for every command line that is understood, with the texts
     that the values are read from.
-/

namespace SkySources.CommandLine

/-! ## Last words -/

namespace Layout
variable {L L' : Layout}

def request (L : Layout) : Request := ⟨L.uses.map Use.saying, L.files⟩

/-- The last word of a command line on a setting, by the setting's own option. -/
def lastWord (L : Layout) (setting : String) : Option Value :=
  ((L.uses.filter fun u => u.IsOf setting).getLast?).map (·.value)

theorem last?_request (target : Target) : L.request.last? target =
    ((L.uses.filter fun u => u.target = target).getLast?).map (·.value) := by
  rw [Request.last?, request, ← List.map_reverse, List.find?_map, ← List.head?_filter,
    ← List.getLast?_reverse, ← List.filter_reverse, List.reverse_reverse, Option.map_map]
  rfl

theorem last?_eq_lastWord {setting : String} {target : Target}
    (h : ∀ u ∈ L.uses, (u.IsOf setting ↔ u.target = target)) :
    L.request.last? target = L.lastWord setting := by
  rw [last?_request, lastWord]
  congr 2
  apply List.filter_congr
  intro u hu
  exact (decide_eq_decide.2 (h u hu)).symm

/-- The options of the layout in another order: the files stay together, and options that
set the same stay in their order. -/
structure Reordered (L L' : Layout) : Prop where
  plain : L'.plain = L.plain
  marked : L'.marked = L.marked
  last : L'.marked.isSome → L'.after = []
  order : ∀ target, (L'.uses.filter fun u => u.target = target) =
    L.uses.filter fun u => u.target = target

theorem Reordered.files (h : L.Reordered L') : L'.files = L.files := by
  rw [Layout.files, Layout.files, h.plain, h.marked]

theorem Reordered.valid (h : L.Reordered L') (hL : L.Valid) : L'.Valid where
  uses := by
    intro u hu
    have hmem : u ∈ L'.uses.filter fun v => v.target = u.target :=
      List.mem_filter.2 ⟨hu, decide_eq_true rfl⟩
    rw [h.order] at hmem
    exact hL.uses u (List.mem_filter.1 hmem).1
  plain := h.plain ▸ hL.plain
  files := h.files ▸ hL.files
  last := h.last

theorem Reordered.last? (h : L.Reordered L') (target : Target) :
    L'.request.last? target = L.request.last? target := by
  rw [last?_request, last?_request, h.order]

end Layout

/-! ## What a request leads to -/

/-- What the file of settings says in its two sections, if one is named; there is nothing in
either section otherwise. -/
inductive FileSays (store : Store) : Option Value → Table → Table → Prop where
  | nothing : FileSays store none [] []
  | file {name text : String} {document tool search output : Table} :
      store.readText name = .ok text → Toml.document text = .ok document →
      IsSection document tool → tool.subtable? "sourcefind" = some search →
      tool.subtable? "export" = some output →
      SearchSettings.schema.Admits (Value.withAbsentEntries search) →
      ExportSettings.schema.Admits (Value.withAbsentEntries output) →
      FileSays store (some (.text name)) search output

/-- The settings that are there before any option is looked at. -/
def settingsBefore (store : Store) (configFile : Option Value) : Except SettingsStop Settings :=
  match configFile with
  | none => .ok .default
  | some (.text name) =>
    match store.readText name with
    | .error f => .error (.file f)
    | .ok text => (Settings.ofText text).mapError .settings
  | some _ => .error .noFileName

/-- The sections of a file that can be read are the settings before any option. -/
theorem FileSays.settingsBefore_eq {store : Store} {configFile : Option Value}
    {fileSearch fileOutput : Table} (h : FileSays store configFile fileSearch fileOutput) :
    ∃ search output, settingsBefore store configFile = .ok ⟨.filled search, .filled output⟩ ∧
      SearchSettings.schema.Reads fileSearch search ∧
      ExportSettings.schema.Reads fileOutput output := by
  cases h with
  | nothing =>
    have hsearch : SearchSettings.schema.ofTable? (Value.withAbsentEntries []) = .ok {} := rfl
    have houtput : ExportSettings.schema.ofTable? (Value.withAbsentEntries []) = .ok {} := rfl
    exact ⟨{}, {}, rfl, Schema.reads_of_ofTable? hsearch, Schema.reads_of_ofTable? houtput⟩
  | @file name text document tool _ _ htext hdocument htool hsearch houtput hadmits hadmits' =>
    obtain ⟨search, hsearch'⟩ := Schema.exists_ofTable?_iff.2 hadmits
    obtain ⟨output, houtput'⟩ := Schema.exists_ofTable?_iff.2 hadmits'
    have hread : Settings.ofText text = .ok ⟨.filled search, .filled output⟩ :=
      Settings.ofText_eq_ok_iff.2 ⟨document, tool, hdocument, htool, .filled hsearch hsearch',
        .filled houtput houtput'⟩
    refine ⟨search, output, ?_, Schema.reads_of_ofTable? hsearch',
      Schema.reads_of_ofTable? houtput'⟩
    unfold settingsBefore
    dsimp only
    rw [htext]
    dsimp only
    rw [hread]
    rfl

namespace Request
variable {r r' : Request} {store : Store}

theorem get?_tableOf (r : Request) (target : String → Target) {names : List String} {name : String}
    (h : name ∈ names) : (r.tableOf target names).get? name = r.last? (target name) := by
  rw [tableOf, Table.get?]
  induction names with
  | nil => exact absurd h List.not_mem_nil
  | cons first names ih =>
    by_cases hname : name = first
    · subst hname
      cases hlast : r.last? (target name) with
      | some v => simp [hlast]
      | none =>
        rw [List.filterMap_cons_none (by rw [hlast]; rfl)]
        by_cases hmem : name ∈ names
        · rw [ih hmem, hlast]
        · rw [List.lookup_eq_none_iff]
          intro entry hentry
          obtain ⟨other, hother, heq⟩ := List.mem_filterMap.1 hentry
          obtain ⟨v, -, rfl⟩ := Option.map_eq_some_iff.1 heq
          exact bne_iff_ne.2 fun heq => hmem (heq ▸ hother)
    · have hrest := ih ((List.mem_cons.1 h).resolve_left hname)
      cases hlast : r.last? (target first) with
      | some v =>
        rw [List.filterMap_cons_some (by rw [hlast]; rfl), List.lookup_cons,
          beq_eq_false_iff_ne.2 hname]
        exact hrest
      | none =>
        rw [List.filterMap_cons_none (by rw [hlast]; rfl)]
        exact hrest

/-- A request leads to settings if those before any option can be changed by what the
options say. -/
theorem settings_eq_ok_iff {p : SearchSettings × ExportSettings} :
    r.settings store = .ok p ↔ ∃ search output,
      settingsBefore store r.configFile? = .ok ⟨.filled search, .filled output⟩ ∧
      SearchSettings.schema.changed search r.search = .ok p.1 ∧
      ExportSettings.schema.changed output r.output = .ok p.2 := by
  have hsettings : r.settings store = settingsBefore store r.configFile? >>= fun settings =>
      (settings.changed r.search r.output).mapError .settings := by
    unfold settings settingsBefore
    rcases r.configFile? with - | v
    · rfl
    · cases v with
      | text name =>
        dsimp only
        cases store.readText name with
        | error f => rfl
        | ok text =>
          dsimp only
          cases Settings.ofText text <;> rfl
      | _ => rfl
  rw [hsettings, bind_eq_ok_iff]
  constructor
  · intro h
    obtain ⟨settings, hbefore, hchanged⟩ := h
    obtain ⟨a, b, rfl, ha, hb⟩ := Settings.changed_eq_ok_iff.1 (mapError_eq_ok_iff.1 hchanged)
    exact ⟨a, b, hbefore, ha, hb⟩
  · intro h
    obtain ⟨a, b, hbefore, ha, hb⟩ := h
    exact ⟨_, hbefore, mapError_eq_ok_iff.2 (Settings.changed_eq_ok_iff.2 ⟨a, b, rfl, ha, hb⟩)⟩

/-- Requests with the same last words lead to the same settings. -/
theorem settings_congr (h : ∀ target, r'.last? target = r.last? target) :
    r'.settings store = r.settings store := by
  have htable (target : String → Target) (names : List String) :
      r'.tableOf target names = r.tableOf target names := by
    unfold tableOf
    simp only [h]
  have hconfig : r'.configFile? = r.configFile? := h .configFile
  have hsearch : r'.search = r.search := htable _ _
  have houtput : r'.output = r.output := htable _ _
  unfold settings
  rw [hconfig, hsearch, houtput]

end Request

namespace Layout
variable {L L' : Layout}

section Words
variable (hL : L.Valid)
include hL

theorem configFile?_request : L.request.configFile? = L.lastWord "config_file" :=
  last?_eq_lastWord fun u hu => (hL.uses u hu).isOf_configFile_iff

section Group
variable {α : Type} {S : Schema α} {target : String → Target} (hS : Sets S target)
include hS

theorem get?_tableOf {name : String} (h : name ∈ S.names) :
    (L.request.tableOf target S.names).get? name = L.lastWord name :=
  (L.request.get?_tableOf target h).trans
    (last?_eq_lastWord fun u hu => (hL.uses u hu).isOf_iff hS h)

/-- The last word on a setting follows the rule of the setting, unless it says nothing. -/
theorem holds_lastWord_iff {r : Rule} (hr : r ∈ S.rules) :
    (∀ v, L.lastWord r.name = some v → r.Holds v) ↔ L.lastWord r.name ≠ some (.list []) := by
  constructor
  · intro h hword
    have hfails := hS.nothing r hr
    rw [(h _ hword).kind] at hfails
    cases hfails
  · intro h v hword
    obtain ⟨u, hlast, rfl⟩ := Option.map_eq_some_iff.1 hword
    obtain ⟨hu, hof⟩ := List.mem_filter.1 (List.mem_of_getLast? hlast)
    have htarget := ((hL.uses u hu).isOf_iff hS (List.mem_map_of_mem hr)).1 (of_decide_eq_true hof)
    have hvalue := value_holds (hL.uses u hu) fun entry hentry heq =>
      hS.suits entry hentry r hr (heq.trans htarget)
    refine hvalue.resolve_left ?_
    intro hnothing
    rw [hword, hnothing] at h
    exact h rfl

theorem exists_changed_iff (s : α) :
    (∃ s', S.changed s (L.request.tableOf target S.names) = .ok s') ↔
      ∀ name ∈ S.names, L.lastWord name ≠ some (.list []) := by
  rw [Schema.exists_changed_iff, Schema.names, List.forall_mem_map]
  apply forall₂_congr
  intro r hr
  rw [← holds_lastWord_iff hL hS hr]
  have hword := get?_tableOf hL hS (List.mem_map_of_mem hr)
  change (L.request.tableOf target (S.rules.map (·.name))).get? r.name = _ at hword
  rw [hword]

/-- Settings that are changed by the options of their group have the last word on each. -/
theorem value?_changed {s s' : α}
    (h : S.changed s (L.request.tableOf target S.names) = .ok s') {name : String}
    (hname : name ∈ S.names) : S.value? s' name = (L.lastWord name).or (S.value? s name) := by
  rw [Schema.changed_iff.1 h name hname, get?_tableOf hL hS hname]

end Group

/-- A layout leads to settings, unless the last word on one of them says nothing. -/
theorem exists_settings_iff {store : Store} {search : SearchSettings} {output : ExportSettings}
    (hbefore : settingsBefore store (L.lastWord "config_file") =
      .ok ⟨.filled search, .filled output⟩) :
    (∃ p, L.request.settings store = .ok p) ↔
      ∀ name ∈ SearchSettings.schema.names ++ ExportSettings.schema.names,
        L.lastWord name ≠ some (.list []) := by
  have hchanged : (∃ p, L.request.settings store = .ok p) ↔
      (∃ search', SearchSettings.schema.changed search L.request.search = .ok search') ∧
        ∃ output', ExportSettings.schema.changed output L.request.output = .ok output' := by
    simp only [Request.settings_eq_ok_iff, configFile?_request hL, hbefore, Except.ok.injEq]
    constructor
    · intro h
      obtain ⟨p, _, _, heq, ha, hb⟩ := h
      cases heq
      exact ⟨⟨_, ha⟩, _, hb⟩
    · intro h
      obtain ⟨⟨a, ha⟩, b, hb⟩ := h
      exact ⟨(a, b), _, _, rfl, ha, hb⟩
  -- the sections are changed one by one
  rw [hchanged, List.forall_mem_append]
  exact and_congr (exists_changed_iff hL sets_search search)
    (exists_changed_iff hL sets_output output)

end Words

theorem tableOf_congr {α : Type} {S : Schema α} {target : String → Target} (hS : Sets S target)
    (hL : L.Valid) (hL' : L'.Valid) (h : ∀ name ∈ S.names, L'.lastWord name = L.lastWord name) :
    L'.request.tableOf target S.names = L.request.tableOf target S.names := by
  unfold Request.tableOf
  apply List.filterMap_congr
  intro name hname
  have hlast {K : Layout} (hK : K.Valid) : K.request.last? (target name) = K.lastWord name :=
    last?_eq_lastWord fun u hu => (hK.uses u hu).isOf_iff hS hname
  rw [hlast hL, hlast hL', h name hname]

/-- Settings follow a command line and a section of a file: each has the last word of the
command line on it, otherwise the value of the file, and otherwise its default. -/
def Leads {α : Type} (L : Layout) (S : Schema α) (file : Table) (s : α) : Prop :=
  ∀ name ∈ S.names, S.value? s name = (L.lastWord name).or
    (((file.get? name).map Value.withAbsent).or (S.value? S.default name))

section Settings
variable {store : Store} (hL : L.Valid)
include hL

theorem leads_of_settings {fileSearch fileOutput : Table} {search : SearchSettings}
    {output : ExportSettings}
    (hfile : FileSays store (L.lastWord "config_file") fileSearch fileOutput)
    (h : L.request.settings store = .ok (search, output)) :
    L.Leads SearchSettings.schema fileSearch search ∧
      L.Leads ExportSettings.schema fileOutput output := by
  obtain ⟨a, b, hbefore, ha, hb⟩ := hfile.settingsBefore_eq
  obtain ⟨a', b', hbefore', hsearch, houtput⟩ := Request.settings_eq_ok_iff.1 h
  rw [configFile?_request hL, hbefore] at hbefore'
  cases hbefore'
  constructor
  · intro name hname
    rw [value?_changed hL sets_search hsearch hname, ha.value name hname]
  · intro name hname
    rw [value?_changed hL sets_output houtput hname, hb.value name hname]

/-- A section of settings only depends on the last words on its own settings, and on the
file. -/
theorem section_congr (hL' : L'.Valid)
    (hfile : L'.lastWord "config_file" = L.lastWord "config_file")
    {p p' : SearchSettings × ExportSettings} (h : L.request.settings store = .ok p)
    (h' : L'.request.settings store = .ok p') :
    ((∀ name ∈ SearchSettings.schema.names, L'.lastWord name = L.lastWord name) → p'.1 = p.1) ∧
      ((∀ name ∈ ExportSettings.schema.names, L'.lastWord name = L.lastWord name) →
        p'.2 = p.2) := by
  obtain ⟨a, b, hbefore, hsearch, houtput⟩ := Request.settings_eq_ok_iff.1 h
  obtain ⟨a', b', hbefore', hsearch', houtput'⟩ := Request.settings_eq_ok_iff.1 h'
  rw [configFile?_request hL', hfile, ← configFile?_request hL, hbefore] at hbefore'
  cases hbefore'
  constructor
  · intro hwords
    have htable : L'.request.search = L.request.search := tableOf_congr sets_search hL hL' hwords
    rw [htable] at hsearch'
    exact Except.ok.inj (hsearch'.symm.trans hsearch)
  · intro hwords
    have htable : L'.request.output = L.request.output := tableOf_congr sets_output hL hL' hwords
    rw [htable] at houtput'
    exact Except.ok.inj (houtput'.symm.trans houtput)

end Settings

end Layout

/-- A command line that is understood is a layout of options and files, and the value of an
option is what the text behind it reads as. Where the file of settings can be read, there are settings unless the last word on one of them says nothing,
and each setting has the last word of the command line, otherwise the value of the file, and
otherwise its default. A section of settings does not depend on the options of the other
one, and nothing depends on the order of options that set different things. -/
theorem settings_precedence {args : List String} {request : Request}
    (h : parse args = .ok request) : ∃ L : Layout,
      L.Valid ∧ L.args = args ∧ request = L.request ∧
      (∀ u ∈ L.uses, u.Spelled) ∧
      (∀ u ∈ L.uses, ∀ name ∈ SearchSettings.schema.names ++ ExportSettings.schema.names,
        (u.option = noFlagOf name → u.value = .truth false) ∧
        ∀ b, u.option = flagOf name → u.value = .truth b → b = true) ∧
      (∀ store fileSearch fileOutput,
        FileSays store (L.lastWord "config_file") fileSearch fileOutput →
        ((∃ p, request.settings store = .ok p) ↔
          ∀ name ∈ SearchSettings.schema.names ++ ExportSettings.schema.names,
            L.lastWord name ≠ some (.list [])) ∧
        ∀ search output, request.settings store = .ok (search, output) →
          L.Leads SearchSettings.schema fileSearch search ∧
            L.Leads ExportSettings.schema fileOutput output) ∧
      (∀ (L' : Layout) request' store p p', L'.Valid → parse L'.args = .ok request' →
        L'.lastWord "config_file" = L.lastWord "config_file" →
        request.settings store = .ok p → request'.settings store = .ok p' →
        ((∀ name ∈ SearchSettings.schema.names, L'.lastWord name = L.lastWord name) →
          p'.1 = p.1) ∧
        ((∀ name ∈ ExportSettings.schema.names, L'.lastWord name = L.lastWord name) →
          p'.2 = p.2)) ∧
      ∀ L', L.Reordered L' → ∃ request', parse L'.args = .ok request' ∧
        request'.files = request.files ∧
        ∀ store, request'.settings store = request.settings store := by
  obtain ⟨L, hL, hargs, rfl⟩ := parse_eq_ok_iff.1 h
  refine ⟨L, hL, hargs, rfl, fun u hu => (hL.uses u hu).spelled, ?_, ?_, ?_, ?_⟩
  · intro u hu name hname
    rcases List.mem_append.1 hname with hname | hname
    · exact (hL.uses u hu).value_switch sets_search hname
    · exact (hL.uses u hu).value_switch sets_output hname
  · intro store fileSearch fileOutput hfile
    obtain ⟨a, b, hbefore, -, -⟩ := hfile.settingsBefore_eq
    exact ⟨Layout.exists_settings_iff hL hbefore, fun _ _ => Layout.leads_of_settings hL hfile⟩
  · intro L' request' store p p' hL' hparse hfile hp hp'
    rw [parse_layout hL'] at hparse
    cases hparse
    exact Layout.section_congr hL hL' hfile hp hp'
  · intro L' hL'
    exact ⟨_, parse_layout (hL'.valid hL), hL'.files, fun store =>
      Request.settings_congr hL'.last?⟩

/-- A directory with a file of settings. -/
def sparseStore : Store := ⟨[(["c.toml"], .text Settings.sparseText)]⟩

theorem readText_sparse : sparseStore.readText "c.toml" = .ok Settings.sparseText := by
  have hpath : (Path.ofText "c.toml").clean = ⟨false, ["c.toml"]⟩ := by
    simp +decide [Path.ofText, Path.clean, String.splitOn, String.splitOnAux]
  have hlocate : sparseStore.locate ⟨false, ["c.toml"]⟩ = .ok ["c.toml"] :=
    Store.locate_eq_ok_iff.2 ⟨by simp [Path.isBroken], by decide +kernel, by decide +kernel⟩
  have hread : sparseStore.read (Path.ofText "c.toml").clean = .ok (.text Settings.sparseText) :=
    hpath ▸ Store.read_eq_ok_iff.2 ⟨_, hlocate, rfl⟩
  exact Store.readText_of_read hread

/-- A command line that names the file and sets six of its settings, two of them twice: first by
the next argument, and then by the argument itself. One option is told by its beginning. -/
def sparseLayout : Layout :=
  { before :=
      [⟨["--config-file", "c.toml"], "--config-file", .configFile, .text "c.toml"⟩,
        ⟨["--source-min-area", "3"], "--source-min-area", .search "source_min_area", .whole 3⟩,
        ⟨["--sol", "trust_region_dense_qr"], "--solver-type", .search "solver_type",
          .text "trust_region_dense_qr"⟩,
        ⟨["--no-find-negative-sources"], "--no-find-negative-sources",
          .search "find_negative_sources", .truth false⟩,
        ⟨["--detection-n-sigma", "4"], "--detection-n-sigma", .search "detection_n_sigma",
          .float 4.0⟩]
    plain := ["x.npy"]
    marked := none
    after :=
      [⟨["--source-min-area=7"], "--source-min-area", .search "source_min_area", .whole 7⟩,
        ⟨["--median-method=binapprox"], "--median-method", .search "median_method",
          .text "binapprox"⟩,
        ⟨["--detection-n-sigma=2.5e1"], "--detection-n-sigma", .search "detection_n_sigma",
          .float 25.0⟩,
        ⟨["--sigma-clip-iters=0"], "--sigma-clip-iters", .search "sigma_clip_iters", .whole 0⟩,
        ⟨["--csv"], "--csv", .output "csv", .truth true⟩] }

theorem means_whole {c : Choice} (hc : c.form = .whole []) {given : String} {n : Int}
    (hmark : given ≠ "--") (h : Text.whole? given = some n) : c.Means given (.whole n) := by
  rw [Choice.Means, if_neg hmark, hc]
  exact .whole (Text.whole?_eq_some_iff.1 h) (.inl rfl)

theorem means_float {c : Choice} (hc : c.form = .float) {given : String} {x y : Float}
    (hmark : given ≠ "--") (h : Text.float? given = some x) (hxy : x = y) :
    c.Means given (.float y) := by
  rw [Choice.Means, if_neg hmark, hc, ← hxy]
  exact .float (Text.float?_eq_some_iff.1 h)

theorem means_word {c : Choice} {choices : List String} (hc : c.form = .word choices)
    {given : String} (hmark : given ≠ "--") (h : choices = [] ∨ given ∈ choices) :
    c.Means given (.text given) := by
  rw [Choice.Means, if_neg hmark, hc]
  exact .word h

theorem sparseLayout_valid : sparseLayout.Valid where
  uses := by
    have hconfig : Choice.Means ⟨["--config-file"], .configFile, .word []⟩ "c.toml"
        (.text "c.toml") := means_word rfl (by decide) (.inl rfl)
    have harea : Choice.Means (.search "--source-min-area" "source_min_area" (.whole [])) "3"
        (.whole 3) := means_whole rfl (by decide) rfl
    have harea' : Choice.Means (.search "--source-min-area" "source_min_area" (.whole [])) "7"
        (.whole 7) := means_whole rfl (by decide) rfl
    have hrounds : Choice.Means (.search "--sigma-clip-iters" "sigma_clip_iters" (.whole [])) "0"
        (.whole 0) := means_whole rfl (by decide) rfl
    have hsolver : Choice.Means
        (.search "--solver-type" "solver_type" (.word (Solver.all.map Solver.name)))
        "trust_region_dense_qr" (.text "trust_region_dense_qr") :=
      means_word rfl (by decide) (.inr (by decide))
    have hmedian : Choice.Means (.search "--median-method" "median_method"
        (.word (Median.Method.all.map Median.Method.name))) "binapprox" (.text "binapprox") :=
      means_word rfl (by decide) (.inr (by decide))
    have hfour : Decimal.toFloat ⟨false, 4, 0⟩ = 4.0 := by
      apply congrArg Float.ofModel
      decide +kernel
    have htwentyFive : Decimal.toFloat ⟨false, 25, 0⟩ = 25.0 := by
      apply congrArg Float.ofModel
      decide +kernel
    have hlevel : Choice.Means (.search "--detection-n-sigma" "detection_n_sigma" .float) "4"
        (.float 4.0) := means_float rfl (by decide) rfl hfour
    have hlevel' : Choice.Means (.search "--detection-n-sigma" "detection_n_sigma" .float)
        "2.5e1" (.float 25.0) := means_float rfl (by decide) rfl htwentyFive
    intro u hu
    simp only [sparseLayout, Layout.uses, List.cons_append, List.nil_append, List.mem_cons,
      List.not_mem_nil, or_false] at hu
    rcases hu with rfl | rfl | rfl | rfl | rfl | rfl | rfl | rfl | rfl | rfl
    · exact .separate (by decide +kernel) rfl (by decide +kernel) hconfig
    · exact .separate (by decide +kernel) rfl (by decide +kernel) harea
    · exact .separate (by decide +kernel) rfl (by decide +kernel) hsolver
    · exact .bare (c := .switch "find-negative-sources" "find_negative_sources")
        (by decide +kernel) rfl (by decide)
    · exact .separate (by decide +kernel) rfl (by decide +kernel) hlevel
    · exact .attached (by decide +kernel) rfl harea'
    · exact .attached (by decide +kernel) rfl hmedian
    · exact .attached (by decide +kernel) rfl hlevel'
    · exact .attached (by decide +kernel) rfl hrounds
    · exact .bare (c := .output "--csv" "csv" .yes) (by decide +kernel) rfl (by decide)
  plain := by decide +kernel
  files := by decide
  last := by decide

theorem fileSays_sparse :
    FileSays sparseStore (some (.text "c.toml")) Settings.sparseSearch [] := by
  have hsection : IsSection [("tool", .table [("stp", .table [("sourcefind",
      .table Settings.sparseSearch)])])] [("sourcefind", .table Settings.sparseSearch)] :=
    ⟨⟨_, rfl, rfl⟩, List.cons_ne_nil _ _⟩
  have hsearch : SearchSettings.schema.ofTable? (Value.withAbsentEntries Settings.sparseSearch) =
      .ok { connectivity := .whole 8, median := .zero } := rfl
  have houtput : ExportSettings.schema.ofTable? (Value.withAbsentEntries []) = .ok {} := rfl
  exact .file readText_sparse Settings.document_sparse hsection rfl rfl
    (Schema.exists_ofTable?_iff.1 ⟨_, hsearch⟩) (Schema.exists_ofTable?_iff.1 ⟨_, houtput⟩)

/-- The settings of the command line and its file: two that are set twice, three that are set
once, one of them although the file has another value, one from the file, and a default. -/
theorem settings_precedence_sparse : ∃ request search output,
    parse sparseLayout.args = .ok request ∧
    request.settings sparseStore = .ok (search, output) ∧
    SearchSettings.schema.value? search "source_min_area" = some (.whole 7) ∧
    SearchSettings.schema.value? search "detection_n_sigma" = some (.float 25.0) ∧
    SearchSettings.schema.value? search "solver_type" = some (.text "trust_region_dense_qr") ∧
    SearchSettings.schema.value? search "find_negative_sources" = some (.truth false) ∧
    SearchSettings.schema.value? search "sigma_clip_iters" = some (.whole 0) ∧
    SearchSettings.schema.value? search "median_method" = some (.text "binapprox") ∧
    SearchSettings.schema.value? search "connectivity" = some (.whole 8) ∧
    SearchSettings.schema.value? search "binapprox_bins" = some (.whole 1000) ∧
    ExportSettings.schema.value? output "csv" = some (.truth true) ∧
    ExportSettings.schema.value? output "labelmap" = some (.truth false) ∧
    ∃ L : Layout, L.args = sparseLayout.args ∧ ∀ u ∈ L.uses, u.Spelled := by
  have hparse := parse_layout sparseLayout_valid
  obtain ⟨L, hL, hargs, hrequest, hspelled, -, hlaw, -⟩ := settings_precedence hparse
  change sparseLayout.request = L.request at hrequest
  have hsearch {name : String} (h : name ∈ SearchSettings.schema.names) :
      L.lastWord name = sparseLayout.request.last? (.search name) := by
    rw [hrequest]
    exact (Layout.last?_eq_lastWord fun u hu => (hL.uses u hu).isOf_iff sets_search h).symm
  have houtput {name : String} (h : name ∈ ExportSettings.schema.names) :
      L.lastWord name = sparseLayout.request.last? (.output name) := by
    rw [hrequest]
    exact (Layout.last?_eq_lastWord fun u hu => (hL.uses u hu).isOf_iff sets_output h).symm
  have hconfig : L.lastWord "config_file" = some (.text "c.toml") := by
    rw [← Layout.configFile?_request hL, ← hrequest]
    rfl
  obtain ⟨hexists, hleads⟩ := hlaw sparseStore _ _ (hconfig ▸ fileSays_sparse)
  have hwords : ∀ name, L.lastWord name ≠ some (.list []) := by
    intro name hword
    obtain ⟨u, hlast, hvalue⟩ := Option.map_eq_some_iff.1 hword
    have hu := (List.mem_filter.1 (List.mem_of_getLast? hlast)).1
    have hsaying : u.saying ∈ sparseLayout.request.sayings := by
      rw [hrequest]
      exact List.mem_map_of_mem hu
    have hvalues : ∀ s ∈ sparseLayout.request.sayings, s.value ≠ .list [] := by
      simp [sparseLayout, Layout.request, Layout.uses, Use.saying]
    exact hvalues _ hsaying hvalue
  obtain ⟨⟨search, output⟩, hsettings⟩ := hexists.2 fun name _ => hwords name
  obtain ⟨hs, ho⟩ := hleads search output hsettings
  have hs' {name : String} (h : name ∈ SearchSettings.schema.names) :=
    hsearch h ▸ hs name h
  have ho' {name : String} (h : name ∈ ExportSettings.schema.names) :=
    houtput h ▸ ho name h
  exact ⟨_, search, output, hparse, hsettings, hs' (by decide), hs' (by decide), hs' (by decide),
    hs' (by decide), hs' (by decide), hs' (by decide), hs' (by decide), hs' (by decide),
    ho' (by decide), ho' (by decide), L, hargs, hspelled⟩

end SkySources.CommandLine
