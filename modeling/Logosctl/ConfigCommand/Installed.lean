/-
# What was installed, and what was meant

A command that fails leaves the file as it was, and one that succeeds leaves a file that loads.
What it loads as is what the text that was read says: parsed, stamped, written out and read again.
What the user's text says is the same thing as long as all of it was read.

`readDocument` drains a stream and does not ask why it ended.  A read that breaks off half way (or
at once, as on a directory) hands over the text up to there, and a document up to there is still a
document.  `allOrNothing_iff` is the law with that in it: of a document without doubles that is read
to its end it always holds (`allOrNothing_of_whole`), and of one that is cut short when what is left
of it is refused or says the same.
-/
import Logosctl.ConfigCommand

namespace Logosctl

open Library JsonSchema YamlJson

/-! ## 1. Reading the document -/

/-- The document where it lies, and after how many characters reading it breaks off, if it does. -/
structure Medium where
  stdin : String
  files : String → Option String
  breaksOff : Option Nat

namespace Medium

/-- What is read of a text. -/
def delivered (medium : Medium) (text : String) : String :=
  match medium.breaksOff with
  | none => text
  | some n => String.ofList (text.toList.take n)

/-- What the user gave. -/
def given (medium : Medium) : DocumentSource where
  stdin := medium.stdin
  open? := medium.files

/-- What the command gets. -/
def source (medium : Medium) : DocumentSource where
  stdin := medium.delivered medium.stdin
  open? path := (medium.files path).map medium.delivered

variable {medium : Medium} {spec text : String}

theorem readDocument_source_eq_ok_iff : readDocument medium.source spec = .ok text ↔
    ∃ whole, readDocument medium.given spec = .ok whole ∧ text = medium.delivered whole := by
  unfold readDocument
  split
  · simp [source, given, eq_comm]
  · next hspec =>
    simp only [source, given]
    split
    · next h =>
      obtain ⟨whole, hwhole, rfl⟩ := Option.map_eq_some_iff.mp h
      simp [hwhole, eq_comm]
    · next h =>
      have hnone := Option.map_eq_none_iff.mp h
      simp [hnone]

theorem delivered_of_whole (h : medium.breaksOff = none) : medium.delivered text = text := by
  simp only [delivered, h]

end Medium

/-! ## 2. What a text says -/

namespace Side

/-- What each of the two documents is read as. -/
def Config : Side → Type
  | daemon => DaemonConfig
  | client => ClientState

def parseDocument : (side : Side) → Json → Except String side.Config
  | daemon => parseDaemonConfigDocument
  | client => parseClientStateDocument

/-- What the loader makes of a file with this content, in a run without flags; none when it says
something against it. -/
def load (yaml : YamlCpp) (path content : String) : (side : Side) → Option side.Config
  | daemon => (DaemonConfigFile.read yaml path (.text content)).1
  | client =>
    match ClientStateFile.read yaml path none (.text content) with
    | (state, []) => some state
    | (_, _ :: _) => none

/-- The text is refused: it is no mapping, or has a key that is not known, or with the schema
version on it the loader has something against it. -/
def Refuses (side : Side) (yaml : YamlCpp) (text : String) : Prop :=
  ∀ kvs, parse yaml text = .ok (.obj kvs) →
    side.unknown kvs ≠ [] ∨ side.refuses (.obj (side.stamp kvs)) ≠ none

/-- The text says `cfg`: its document, with the schema version on it, is one for the loader. -/
def Says (side : Side) (yaml : YamlCpp) (text : String) (cfg : side.Config) : Prop :=
  ∃ kvs, parse yaml text = .ok (.obj kvs) ∧
    side.parseDocument (.obj (side.stamp kvs)) = .ok cfg

/-- The text is let through, and its document is `cfg` to the loader once it was written out. -/
def SettlesAs (side : Side) (yaml : YamlPair) (text : String) (cfg : side.Config) : Prop :=
  ∃ kvs, parse yaml.toYamlCpp text = .ok (.obj kvs) ∧ side.unknown kvs = [] ∧
    side.parseDocument (.obj (rereadMembers yaml (side.stamp kvs))) = .ok cfg

section

variable {side : Side} {yaml : YamlPair} {text canonical : String} {cfg : side.Config}

theorem refuses_eq_none_iff {doc : Json} :
    side.refuses doc = none ↔ ∃ cfg, side.parseDocument doc = .ok cfg := by
  cases side with
  | daemon =>
    simp only [refuses, parseDocument]
    cases parseDaemonConfigDocument doc with
    | error e => exact iff_of_false (Option.some_ne_none e) (by rintro ⟨cfg, ⟨⟩⟩)
    | ok cfg => exact ⟨fun _ => ⟨cfg, rfl⟩, fun _ => rfl⟩
  | client =>
    simp only [refuses, parseDocument]
    cases parseClientStateDocument doc with
    | error e => exact iff_of_false (Option.some_ne_none e) (by rintro ⟨cfg, ⟨⟩⟩)
    | ok state => exact ⟨fun _ => ⟨state, rfl⟩, fun _ => rfl⟩

/-- The file is parsed, and its document put to the loader. -/
theorem load_of_parse {path : String} {doc : Json} (h : parse yaml.toYamlCpp text = .ok doc) :
    side.load yaml.toYamlCpp path text = (side.parseDocument doc).toOption := by
  cases side with
  | daemon =>
    simp only [load, DaemonConfigFile.read, h, parseDocument]
    cases parseDaemonConfigDocument doc <;> rfl
  | client =>
    simp only [load, ClientStateFile.read, h, parseDocument]
    cases parseClientStateDocument doc <;> rfl

variable (hkey : ∀ tag s, yaml.asString (.scalar tag s) = .ok s)
  (hint : ReadsInt64 yaml.toYamlCpp)
  (hcarries : ∀ kvs, parse yaml.toYamlCpp text = .ok (.obj kvs) →
    Carries yaml (emit yaml (.obj (side.stamp kvs))))

include hkey hint hcarries in
/-- What is written for a document is read as that document, reread. -/
theorem parse_canonical {kvs : List (String × Json)}
    (hparse : parse yaml.toYamlCpp text = .ok (.obj kvs)) :
    parse yaml.toYamlCpp (dump yaml (.obj (side.stamp kvs))) =
      .ok (.obj (rereadMembers yaml (side.stamp kvs))) :=
  parse_dump hkey (held_stamp (held_of_parse hint hparse)) (hcarries kvs hparse)

include hkey hint hcarries in
/-- The canonical text of a document loads as what the document settles as. -/
theorem settlesAs_of_canonicalText (h : canonicalText side yaml text = .ok canonical) :
    ∃ cfg, side.SettlesAs yaml text cfg ∧
      ∀ path, side.load yaml.toYamlCpp path canonical = some cfg := by
  obtain ⟨kvs, reparsed, hparse, hunknown, rfl, hreparsed, hloads⟩ := canonicalText_eq_ok_iff.mp h
  have hback := parse_canonical hkey hint hcarries hparse
  cases hback.symm.trans hreparsed
  obtain ⟨cfg, hcfg⟩ := refuses_eq_none_iff.mp hloads
  refine ⟨cfg, ⟨kvs, hparse, hunknown, hcfg⟩, fun path => ?_⟩
  rw [load_of_parse hback, hcfg]
  rfl

include hkey hint hcarries in
/-- A document that settles is let through. -/
theorem canonicalText_of_settlesAs (h : side.SettlesAs yaml text cfg) :
    ∃ canonical, canonicalText side yaml text = .ok canonical ∧
      ∀ path, side.load yaml.toYamlCpp path canonical = some cfg := by
  obtain ⟨kvs, hparse, hunknown, hcfg⟩ := h
  have hback := parse_canonical hkey hint hcarries hparse
  refine ⟨_, canonicalText_eq_ok_iff.mpr
    ⟨kvs, _, hparse, hunknown, rfl, hback, refuses_eq_none_iff.mpr ⟨cfg, hcfg⟩⟩, fun path => ?_⟩
  rw [load_of_parse hback, hcfg]
  rfl

/-- A stamped document without doubles is reread as it is. -/
theorem rereadMembers_stamp (hread : ReadsScalars yaml) {kvs : List (String × Json)}
    (hdoc : Storable (.obj kvs)) : rereadMembers yaml (side.stamp kvs) = side.stamp kvs := by
  have hversion : Storable (.int side.schemaVersion) := by
    cases side with
    | daemon => exact .int _ (by decide) (by decide)
    | client => exact .int _ (by decide) (by decide)
  have hstamped : Storable (.obj (side.stamp kvs)) := storable_assign hversion hdoc
  have hback := reread_of_storable hread hstamped
  rw [reread] at hback
  exact Json.obj.inj hback

/-- **What a document without doubles settles as**: what it says, if it is not refused. -/
theorem settlesAs_iff (hread : ReadsScalars yaml)
    (hdoc : ∀ kvs, parse yaml.toYamlCpp text = .ok (.obj kvs) → Storable (.obj kvs)) :
    side.SettlesAs yaml text cfg ↔
      ¬ side.Refuses yaml.toYamlCpp text ∧ side.Says yaml.toYamlCpp text cfg := by
  constructor
  · rintro ⟨kvs, hparse, hunknown, hcfg⟩
    rw [rereadMembers_stamp hread (hdoc kvs hparse)] at hcfg
    refine ⟨fun hrefuses => ?_, kvs, hparse, hcfg⟩
    exact (hrefuses kvs hparse).elim (fun hne => hne hunknown)
      fun hne => hne (refuses_eq_none_iff.mpr ⟨cfg, hcfg⟩)
  · rintro ⟨hlet, kvs, hparse, hcfg⟩
    unfold Refuses at hlet
    push Not at hlet
    obtain ⟨kvs', hparse', hunknown, -⟩ := hlet
    cases hparse.symm.trans hparse'
    refine ⟨kvs, hparse, hunknown, ?_⟩
    rwa [rereadMembers_stamp hread (hdoc kvs hparse)]

end

end Side

/-! ## 3. All or nothing -/

/-- A command that fails leaves the file as it was.  One that succeeds leaves a file that loads, as
what the user's text says. -/
def AllOrNothing (side : Side) (yaml : YamlPair) (medium : Medium) (spec path : String)
    (fs : Installing) (before : Option InstalledFile) : Prop :=
  match ConfigCommand.set side yaml medium.source spec path fs before with
  | (.error _, after) => after = before
  | (.ok _, after) => ∃ file text cfg, after = some file ∧
      readDocument medium.given spec = .ok text ∧
      side.load yaml.toYamlCpp path file.content = some cfg ∧ side.Says yaml.toYamlCpp text cfg

section AllOrNothing

variable {side : Side} {yaml : YamlPair} {medium : Medium} {spec path : String} {fs : Installing}
  {before : Option InstalledFile}

/-- Only when every call does what it is asked to is anything installed. -/
theorem succeeds_of_set {p : String} {after : Option InstalledFile} {source : DocumentSource}
    (h : ConfigCommand.set side yaml source spec path fs before = (.ok p, after)) :
    fs.Succeeds := by
  unfold ConfigCommand.set at h
  split at h
  · cases h
  · split at h
    · cases h
    · unfold installText at h
      split_ifs at h with hcreate htmp hrename
      · cases h
      · cases h
      · cases h
      · simp only [Bool.or_eq_true, Bool.not_eq_true', not_or, Bool.not_eq_false] at htmp
        simp only [Bool.not_eq_true', Bool.not_eq_false] at hcreate hrename
        exact ⟨hcreate, htmp.1, htmp.2, hrename⟩

variable (hkey : ∀ tag s, yaml.asString (.scalar tag s) = .ok s)
  (hint : ReadsInt64 yaml.toYamlCpp)
  (hcarries : ∀ text kvs, readDocument medium.source spec = .ok text →
    parse yaml.toYamlCpp text = .ok (.obj kvs) →
    Carries yaml (emit yaml (.obj (side.stamp kvs))))

include hkey hint hcarries in
/-- If what was read settles as what the user's text says, the law holds. -/
theorem allOrNothing_of_says (h : ∀ text, readDocument medium.given spec = .ok text →
      fs.Succeeds → ∀ cfg, side.SettlesAs yaml (medium.delivered text) cfg →
        side.Says yaml.toYamlCpp text cfg) :
    AllOrNothing side yaml medium spec path fs before := by
  unfold AllOrNothing
  split
  · next after hset => exact set_error hset
  · next after hset =>
    obtain ⟨text, canonical, htext, hcanonical, rfl⟩ := set_ok hset
    obtain ⟨whole, hwhole, rfl⟩ := Medium.readDocument_source_eq_ok_iff.mp htext
    obtain ⟨cfg, hsettles, hload⟩ := Side.settlesAs_of_canonicalText hkey hint
      (fun kvs => hcarries _ kvs htext) hcanonical
    have hsays := h whole hwhole (succeeds_of_set hset) cfg hsettles
    exact ⟨_, whole, cfg, rfl, hwhole, hload path, hsays⟩

include hkey hint hcarries in
/-- If the law holds, what was read settles as what the user's text says. -/
theorem says_of_allOrNothing (h : AllOrNothing side yaml medium spec path fs before) {text : String}
    (htext : readDocument medium.given spec = .ok text) (hfs : fs.Succeeds) {cfg : side.Config}
    (hsettles : side.SettlesAs yaml (medium.delivered text) cfg) :
    side.Says yaml.toYamlCpp text cfg := by
  have hsource := Medium.readDocument_source_eq_ok_iff.mpr ⟨text, htext, rfl⟩
  obtain ⟨canonical, hcanonical, hload⟩ := Side.canonicalText_of_settlesAs hkey hint
    (fun kvs => hcarries _ kvs hsource) hsettles
  have hset : ConfigCommand.set side yaml medium.source spec path fs before =
      (.ok path, some ⟨canonical, modeOfTmp fs before⟩) := by
    simp only [ConfigCommand.set, hsource, hcanonical, installText_of_succeeds hfs]
  unfold AllOrNothing at h
  rw [hset] at h
  obtain ⟨file, text', cfg', hfile, htext', hload', hsays⟩ := h
  cases hfile
  cases htext.symm.trans htext'
  cases (hload path).symm.trans hload'
  exact hsays

include hint hcarries in
/-- A document without doubles that is read to its end is installed as what it says, or not at
all. -/
theorem allOrNothing_of_whole (hread : ReadsScalars yaml) (hwhole : medium.breaksOff = none)
    (hdoc : ∀ text kvs, readDocument medium.source spec = .ok text →
      parse yaml.toYamlCpp text = .ok (.obj kvs) → Storable (.obj kvs)) :
    AllOrNothing side yaml medium spec path fs before := by
  refine allOrNothing_of_says hread.key hint hcarries ?_
  intro text htext _ cfg hsettles
  have hsource := Medium.readDocument_source_eq_ok_iff.mpr ⟨text, htext, rfl⟩
  have hsays := ((Side.settlesAs_iff hread fun kvs => hdoc _ kvs hsource).mp hsettles).2
  rwa [Medium.delivered_of_whole hwhole] at hsays

/-- **When the command is all or nothing**, for documents without doubles: whenever the document is
read to its end, and where reading it breaks off, exactly when a call on the filesystem fails or
what was read up to there is refused or says no more than the whole does. -/
theorem allOrNothing_iff (hread : ReadsScalars yaml) (hint : ReadsInt64 yaml.toYamlCpp)
    (hcarries : ∀ text kvs, readDocument medium.source spec = .ok text →
      parse yaml.toYamlCpp text = .ok (.obj kvs) →
      Carries yaml (emit yaml (.obj (side.stamp kvs))))
    (hdoc : ∀ text kvs, readDocument medium.source spec = .ok text →
      parse yaml.toYamlCpp text = .ok (.obj kvs) → Storable (.obj kvs)) :
    AllOrNothing side yaml medium spec path fs before ↔
      medium.breaksOff = none ∨ ¬ fs.Succeeds ∨
        ∀ text, readDocument medium.given spec = .ok text →
          side.Refuses yaml.toYamlCpp (medium.delivered text) ∨
            ∀ cfg, side.Says yaml.toYamlCpp (medium.delivered text) cfg →
              side.Says yaml.toYamlCpp text cfg := by
  have hsettles : ∀ text cfg, readDocument medium.given spec = .ok text →
      (side.SettlesAs yaml (medium.delivered text) cfg ↔
        ¬ side.Refuses yaml.toYamlCpp (medium.delivered text) ∧
          side.Says yaml.toYamlCpp (medium.delivered text) cfg) := by
    intro text cfg htext
    have hsource := Medium.readDocument_source_eq_ok_iff.mpr ⟨text, htext, rfl⟩
    exact Side.settlesAs_iff hread fun kvs => hdoc _ kvs hsource
  constructor
  · intro h
    by_cases hfs : fs.Succeeds
    · refine Or.inr (Or.inr fun text htext => ?_)
      refine or_iff_not_imp_left.mpr fun hlet cfg hsays => ?_
      exact says_of_allOrNothing hread.key hint hcarries h htext hfs
        ((hsettles text cfg htext).mpr ⟨hlet, hsays⟩)
    · exact Or.inr (Or.inl hfs)
  · rintro (hwhole | hfails | hcut)
    · exact allOrNothing_of_whole hint hcarries hread hwhole hdoc
    · exact allOrNothing_of_says hread.key hint hcarries fun _ _ hfs => absurd hfs hfails
    · refine allOrNothing_of_says hread.key hint hcarries fun text htext _ cfg hcfg => ?_
      obtain ⟨hlet, hsays⟩ := (hsettles text cfg htext).mp hcfg
      exact (hcut text htext).resolve_left hlet cfg hsays

end AllOrNothing

/-- Two settings, the second of which matters. -/
def policySpec : List (String × Json) :=
  [("insecure_tcp", .bool false), ("signature_policy", .str "require")]

def policyText : String := "insecure_tcp: false\nsignature_policy: require\n"

/-- The first of them. -/
def firstSpec : List (String × Json) := [("insecure_tcp", .bool false)]

def firstLine : String := "insecure_tcp: false\n"

/-- What is written for it. -/
def firstInstalled : String := "insecure_tcp: false\nversion: 2\n"

/-- The parser and the emitter on these texts. -/
def policyYaml : YamlPair :=
  knowingAll [(firstInstalled, Side.daemon.stamp firstSpec), (firstLine, firstSpec),
    (policyText, policySpec)]

/-- Reading breaks off after the first line. -/
def brokenOff : Medium := ⟨policyText, fun _ => none, some 20⟩

theorem delivered_policyText : brokenOff.delivered policyText = firstLine := by decide +kernel

theorem storable_firstSpec : Storable (.obj firstSpec) := by
  refine .obj _ (List.pairwise_singleton _ _) ?_
  simp only [firstSpec, List.forall_mem_cons]
  exact ⟨.bool _, List.forall_mem_nil _⟩

theorem storable_policySpec : Storable (.obj policySpec) := by
  refine .obj _ (by decide +kernel) ?_
  simp only [policySpec, List.forall_mem_cons]
  exact ⟨.bool _, .str _, List.forall_mem_nil _⟩

theorem parse_firstLine : parse policyYaml.toYamlCpp firstLine = .ok (.obj firstSpec) := by
  refine @parse_knowingAll _ (firstLine, firstSpec) _ storable_firstSpec ?_
  rw [List.find?_cons_of_neg (by decide +kernel), List.find?_cons_of_pos (by decide +kernel)]

theorem parse_firstInstalled : parse policyYaml.toYamlCpp firstInstalled =
    .ok (.obj (Side.daemon.stamp firstSpec)) :=
  @parse_knowingAll _ (firstInstalled, Side.daemon.stamp firstSpec) _
    (storable_assign (.int _ (by decide) (by decide)) storable_firstSpec) rfl

theorem parse_policyText : parse policyYaml.toYamlCpp policyText = .ok (.obj policySpec) := by
  refine @parse_knowingAll _ (policyText, policySpec) _ storable_policySpec ?_
  rw [List.find?_cons_of_neg (by decide +kernel), List.find?_cons_of_neg (by decide +kernel),
    List.find?_cons_of_pos (by decide +kernel)]

/-- Cut short, the document installs, and requires no signature. -/
theorem broken_off_installs :
    ConfigCommand.set .daemon policyYaml brokenOff.source "-" "daemon/config.yaml" .smooth none =
        (.ok "daemon/config.yaml", some ⟨firstInstalled, 0o644⟩) ∧
      ¬ AllOrNothing .daemon policyYaml brokenOff "-" "daemon/config.yaml" .smooth none := by
  have hsource : readDocument brokenOff.source "-" = .ok firstLine :=
    congrArg Except.ok delivered_policyText
  have hcanonical : canonicalText .daemon policyYaml firstLine = .ok firstInstalled :=
    canonicalText_eq_ok_iff.mpr ⟨_, _, parse_firstLine, by decide +kernel, by decide +kernel,
      parse_firstInstalled, by decide +kernel⟩
  have hset : ConfigCommand.set .daemon policyYaml brokenOff.source "-" "daemon/config.yaml"
      .smooth none = (.ok "daemon/config.yaml", some ⟨firstInstalled, 0o644⟩) := by
    simp only [ConfigCommand.set, hsource, hcanonical]
    rfl
  refine ⟨hset, ?_⟩
  intro h
  unfold AllOrNothing at h
  rw [hset] at h
  obtain ⟨file, text, cfg, hfile, htext, hload, kvs, hparse, hcfg⟩ := h
  cases hfile
  cases htext
  cases hparse.symm.trans parse_policyText
  rw [Side.load_of_parse parse_firstInstalled] at hload
  -- the policy of the one is not the policy of the other
  have hfirst : (parseDaemonConfigDocument (.obj (Side.daemon.stamp firstSpec))).toOption.map
      DaemonConfig.signaturePolicy = some "" := by decide +kernel
  have hwhole : (parseDaemonConfigDocument (.obj (Side.daemon.stamp policySpec))).toOption.map
      DaemonConfig.signaturePolicy = some "require" := by decide +kernel
  have hboth := congrArg (Option.map DaemonConfig.signaturePolicy)
    (hload.trans (congrArg Except.toOption hcfg).symm)
  exact absurd (hfirst.symm.trans (hboth.trans hwhole)) (by decide)

/-- Read to its end, it is installed as it stands. -/
theorem first_line_all_or_nothing :
    AllOrNothing .daemon policyYaml ⟨firstLine, fun _ => none, none⟩ "-" "daemon/config.yaml"
      .smooth none := by
  refine (allOrNothing_iff readsScalars_knowingAll ?_ ?_ ?_).mpr (Or.inl rfl)
  · exact @readsInt64_knowing "" .null
  · intro text kvs htext hparse
    cases htext
    cases hparse.symm.trans parse_firstLine
    exact carries_knowingAll _ _
  · intro text kvs htext hparse
    cases htext
    cases hparse.symm.trans parse_firstLine
    exact storable_firstSpec

end Logosctl
