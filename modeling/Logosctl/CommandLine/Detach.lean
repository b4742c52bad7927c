/-
# The detached child's command line

With `--detach` the daemon is started by a second copy of the program, on the same arguments
less every word that is `-d` or `--detach`; the second copy must not detach again.  The filter
looks at words, and the reader does not: a flag has other spellings (`-Dd`, `--detach=true`), a
word `-d` may be the value of `--config-dir` or an argument that a subcommand keeps, and once a
word is gone its neighbours may make a group and a verb.

This module proves that the child reads as it should exactly when none of this happens.  The
part about the groups is about words as they were typed, the rest about the words that are read.
-/
import Logosctl.CommandLine.Options

namespace Logosctl.CommandLine

open Library

/-! ## 1. The child -/

def isDetach (a : String) : Bool := a == "-d" || a == "--detach"

/-- The loop over `argv` in `main`; `self` is the path that the program is started by again. -/
def childArgs (self : String) (argv : List String) : List String :=
  self :: argv.tail.filter (!isDetach ·)

/-- The options of a run: the words behind the program, with the groups rewritten. -/
def parseArgv (parse : Parsed → List String → Option Parsed) (argv : List String) :
    Option Parsed :=
  parse {} (normalizeGroupVerbs argv).tail

namespace Parsed

/-- `main` gets to the daemon, and starts it. -/
def startsDaemon (flagValue : String → Option Bool) (r : Parsed) : Bool :=
  r.subcommand.all (!groupCommands.contains ·) &&
    (r.isOn flagValue .daemon || r.subcommand == some "daemon")

/-- `main` hands over to a child. -/
def startsDetached (flagValue : String → Option Bool) (r : Parsed) : Bool :=
  r.startsDaemon flagValue && r.isOn flagValue .detach

/-- All that was read apart from the one flag. -/
structure SameButDetach (r r' : Parsed) : Prop where
  value : ∀ flag, flag ≠ .detach → r'.value flag = r.value flag
  configDir : r'.configDir = r.configDir
  subcommand : r'.subcommand = r.subcommand
  remaining : r'.remaining = r.remaining

end Parsed

/-- The child starts the daemon, does not detach, and reads everything else as the parent. -/
def ChildStartsOnce (flagValue : String → Option Bool)
    (parse : Parsed → List String → Option Parsed) (self : String) (argv : List String)
    (r : Parsed) : Prop :=
  ∃ r', parseArgv parse (childArgs self argv) = some r' ∧ r'.startsDaemon flagValue = true ∧
    r'.isOn flagValue .detach = false ∧ r.SameButDetach r'

/-! ## 2. When it does -/

/-- The words that are no options: the values of `--config-dir`, and what a subcommand keeps. -/
def keptWords : List String → List String
  | [] => []
  | word :: rest =>
    match readWord word with
    | .options ⟨_, .wantsDir⟩ =>
      match rest with
      | [] => []
      | dir :: rest => dir :: keptWords rest
    | .extras _ => rest
    | _ => keptWords rest

/-- The words that are read as options. -/
def optionWords : List String → List String
  | [] => []
  | word :: rest =>
    match readWord word with
    | .options ⟨_, .wantsDir⟩ =>
      match rest with
      | [] => [word]
      | _ :: rest => word :: optionWords rest
    | .extras _ => []
    | _ => word :: optionWords rest

theorem keptWords_cons (word : String) (rest : List String) : keptWords (word :: rest) =
    match readWord word with
    | .options ⟨_, .wantsDir⟩ =>
      match rest with
      | [] => []
      | dir :: rest => dir :: keptWords rest
    | .extras _ => rest
    | _ => keptWords rest := keptWords.eq_def _

theorem optionWords_cons (word : String) (rest : List String) : optionWords (word :: rest) =
    match readWord word with
    | .options ⟨_, .wantsDir⟩ =>
      match rest with
      | [] => [word]
      | _ :: rest => word :: optionWords rest
    | .extras _ => []
    | _ => word :: optionWords rest := optionWords.eq_def _

/-- The flags that a word of options gives. -/
def givenBy (word : String) : List (Flag × String) :=
  match readWord word with
  | .options o => o.given
  | _ => []

/-- The values of one flag, in order. -/
def valuesOf (flag : Flag) (given : List (Flag × String)) : List String :=
  (given.filter (·.1 == flag)).map Prod.snd

/-- The values that `--detach` gets from words the filter does not know. -/
def otherSpellings (words : List String) : List String :=
  ((optionWords words).filter (!isDetach ·)).flatMap fun word => valuesOf .detach (givenBy word)

/-- The filter takes the flag away, and nothing else. -/
structure PlainlyDetached (flagValue : String → Option Bool) (args : List String) : Prop where
  /-- No group stands before a `-d` and one of its verbs behind. -/
  no_pair : ¬ PairAcross groupVerb (!isDetach ·) args
  /-- No `-d` is a value or an argument. -/
  no_word : ∀ a ∈ keptWords (collapse groupVerb args), isDetach a = false
  /-- The last of the other spellings, if there is one, turns the flag off. -/
  no_spelling : ∀ value, (otherSpellings (collapse groupVerb args)).getLast? = some value →
    flagValue value = some false

/-! ## 3. What reading keeps -/

section Reading

variable {takes : List String → Bool} {s s' r r' : Parsed} {given : List (Flag × String)}
  {words : List String}

namespace Parsed

@[simp] theorem configDir_give (s : Parsed) (flag : Flag) (value : String) :
    (s.give flag value).configDir = s.configDir := rfl

@[simp] theorem subcommand_give (s : Parsed) (flag : Flag) (value : String) :
    (s.give flag value).subcommand = s.subcommand := rfl

@[simp] theorem remaining_give (s : Parsed) (flag : Flag) (value : String) :
    (s.give flag value).remaining = s.remaining := rfl

@[simp] theorem configDir_inDir (s : Parsed) (dir : String) :
    (s.inDir dir).configDir = dir :: s.configDir := rfl

theorem value_give (s : Parsed) (flag other : Flag) (value : String) :
    (s.give flag value).value other = if flag = other then some value else s.value other := by
  by_cases h : flag = other
  · simp [give, Parsed.value, h]
  · have hne : (other == flag) = false := by simpa using Ne.symm h
    simp [give, Parsed.value, h, List.lookup_cons, hne]

theorem giveAll_cons (s : Parsed) (g : Flag × String) (given : List (Flag × String)) :
    s.giveAll (g :: given) = (s.give g.1 g.2).giveAll given := rfl

@[simp] theorem configDir_giveAll : ∀ (given : List (Flag × String)) (s : Parsed),
    (s.giveAll given).configDir = s.configDir
  | [], _ => rfl
  | g :: given, s => by rw [giveAll_cons, configDir_giveAll given, configDir_give]

@[simp] theorem subcommand_giveAll : ∀ (given : List (Flag × String)) (s : Parsed),
    (s.giveAll given).subcommand = s.subcommand
  | [], _ => rfl
  | g :: given, s => by rw [giveAll_cons, subcommand_giveAll given, subcommand_give]

@[simp] theorem remaining_giveAll : ∀ (given : List (Flag × String)) (s : Parsed),
    (s.giveAll given).remaining = s.remaining
  | [], _ => rfl
  | g :: given, s => by rw [giveAll_cons, remaining_giveAll given, remaining_give]

/-- The last of the given values counts, or else the one from before. -/
theorem value_giveAll (flag : Flag) : ∀ (given : List (Flag × String)) (s : Parsed),
    (s.giveAll given).value flag = (valuesOf flag given).getLast?.or (s.value flag)
  | [], s => rfl
  | g :: given, s => by
    rw [giveAll_cons, value_giveAll flag given, value_give]
    by_cases h : g.1 = flag
    · have hvalues : valuesOf flag (g :: given) = [g.2] ++ valuesOf flag given := by
        simp [valuesOf, h]
      rw [hvalues, List.getLast?_append, if_pos h]
      cases (valuesOf flag given).getLast? <;> simp
    · have hvalues : valuesOf flag (g :: given) = valuesOf flag given := by simp [valuesOf, h]
      rw [hvalues, if_neg h]

theorem SameButDetach.giveAll (h : s.SameButDetach s') (given : List (Flag × String)) :
    (s.giveAll given).SameButDetach (s'.giveAll given) where
  value flag hflag := by rw [value_giveAll, value_giveAll, h.value flag hflag]
  configDir := by simpa using h.configDir
  subcommand := by simpa using h.subcommand
  remaining := by simpa using h.remaining

/-- The parent reads the flag, and the child does not. -/
theorem SameButDetach.give_detach (h : s.SameButDetach s') (value : String) :
    (s.give .detach value).SameButDetach s' where
  value flag hflag := by rw [value_give, if_neg (Ne.symm hflag), h.value flag hflag]
  configDir := h.configDir
  subcommand := h.subcommand
  remaining := h.remaining

theorem SameButDetach.inDir (h : s.SameButDetach s') (dir : String) :
    (s.inDir dir).SameButDetach (s'.inDir dir) where
  value := h.value
  configDir := congrArg (dir :: ·) h.configDir
  subcommand := h.subcommand
  remaining := h.remaining

theorem settled_iff {flagValue : String → Option Bool} : r.settled flagValue = true ↔
    r.configDir.length ≤ 1 ∧ ∀ flag value, r.value flag = some value →
      (flagValue value).isSome := by
  simp only [settled, Bool.and_eq_true, decide_eq_true_eq, List.all_eq_true]
  refine and_congr_right fun _ => ⟨fun h flag value hvalue => ?_, fun h given hgiven => ?_⟩
  · have hmem : (flag, value) ∈ r.flags := mem_of_lookup hvalue
    simpa [hvalue] using h _ hmem
  · cases hvalue : r.value given.1 with
    | none => exact absurd (List.mem_map_of_mem hgiven) (notMem_keys_of_lookup hvalue)
    | some value => exact h _ _ hvalue

end Parsed

/-- What is read of `--config-dir` goes in front of what was. -/
theorem suffix_of_inDir {given : List (Flag × String)} {dir : String} {dirs : List String}
    (h : ((s.giveAll given).inDir dir).configDir <:+ dirs) : s.configDir <:+ dirs := by
  rw [Parsed.configDir_inDir, Parsed.configDir_giveAll] at h
  exact (List.suffix_cons _ _).trans h

/-- What was read of `--config-dir` stays read. -/
theorem scan_configDir (h : scan takes s words = some r) : s.configDir <:+ r.configDir := by
  fun_induction scan takes s words with
  | case1 s => exact (Option.some.inj h) ▸ List.suffix_refl _
  | case2 s word rest given hword ih => simpa using ih h
  | case3 s word rest given dir hword ih => exact suffix_of_inDir (ih h)
  | case5 s word given hword dir rest ih => exact suffix_of_inDir (ih h)
  | case6 s word given hword =>
    have hsame : r.configDir = s.configDir := by
      rw [← Option.some.inj h, Parsed.configDir_giveAll]
    exact hsame ▸ List.suffix_refl _
  | case8 s word rest hword hsub ih => exact ih h
  | case10 s word rest name hword htakes => exact (Option.some.inj h) ▸ List.suffix_refl _
  | case4 | case7 | case9 | case11 | case12 => cases h

/-- Two readings that agree on `--config-dir` in the end were given the same value. -/
theorem eq_of_scan_inDir {dir dir' : String} {words' : List String}
    (h : scan takes (s.inDir dir) words = some r) (h' : scan takes (s'.inDir dir') words' = some r')
    (hs : s'.configDir = s.configDir) (hr : r'.configDir = r.configDir) : dir' = dir := by
  have hdir := scan_configDir h
  have hdir' := scan_configDir h'
  rw [Parsed.configDir_inDir] at hdir
  rw [Parsed.configDir_inDir, hs, hr] at hdir'
  have hsuffix := List.suffix_of_suffix_length_le hdir' hdir (by simp)
  exact (List.cons.inj (hsuffix.eq_of_length (by simp))).1

theorem readWord_of_isDetach {word : String} (h : isDetach word = true) :
    readWord word = .options ⟨[(.detach, "true")], .plain⟩ := by
  rcases Bool.or_eq_true_iff.mp h with hword | hword
  · have hmem : ('d', Flag.detach) ∈ shortNames := by decide
    have hshort : readWord "-d" = _ := readWord_short hmem []
    rw [eq_of_beq hword, hshort, if_pos rfl]
  · have hmem : ("detach", Flag.detach) ∈ longNames := by decide
    have hlong := readWord_flag hmem (.inl rfl)
    rw [ofList_long, List.tail_nil, if_pos rfl] at hlong
    rwa [eq_of_beq hword]

/-- Only the flag itself is a word of the filter. -/
theorem isDetach_eq_false {word : String}
    (h : readWord word ≠ .options ⟨[(.detach, "true")], .plain⟩) : isDetach word = false := by
  by_contra hword
  exact h (readWord_of_isDetach (by simpa using hword))

theorem otherSpellings_of_isDetach {word : String} (h : isDetach word = true)
    (rest : List String) : otherSpellings (word :: rest) = otherSpellings rest := by
  have hwords : optionWords (word :: rest) = word :: optionWords rest := by
    rw [optionWords_cons, readWord_of_isDetach h]
  rw [otherSpellings, hwords, List.filter_cons_of_neg (by simp [h])]
  rfl

/-- A word that the filter leaves, and what is left of the flag with it. -/
theorem or_otherSpellings {word : String} {rest rest' : List String} {s : Parsed}
    (hwords : optionWords (word :: rest) = word :: optionWords rest')
    (hword : isDetach word = false) :
    (otherSpellings (word :: rest)).getLast?.or (s.value .detach)
      = (otherSpellings rest').getLast?.or ((s.giveAll (givenBy word)).value .detach) := by
  rw [otherSpellings, hwords, List.filter_cons_of_pos (by simp [hword]), List.flatMap_cons,
    List.getLast?_append, Option.or_assoc, Parsed.value_giveAll]
  rfl

/-- **Without the words of the filter, the same is read**, as long as none of them is kept; what
is left of the flag comes from its other spellings. -/
theorem scan_filter (h : scan takes s words = some r)
    (hkept : ∀ a ∈ keptWords words, isDetach a = false) (hs : s.SameButDetach s') :
    ∃ r', scan takes s' (words.filter (!isDetach ·)) = some r' ∧ r.SameButDetach r' ∧
      r'.value .detach = (otherSpellings words).getLast?.or (s'.value .detach) := by
  fun_induction scan takes s words generalizing s' with
  | case1 s =>
    obtain rfl := Option.some.inj h
    exact ⟨s', rfl, hs, rfl⟩
  | case2 s word rest given hword ih =>
    have hrest : ∀ a ∈ keptWords rest, isDetach a = false := by
      rwa [keptWords_cons, hword] at hkept
    by_cases hdetach : isDetach word = true
    · have hsame : (s.giveAll given).SameButDetach s' := by
        rw [readWord_of_isDetach hdetach] at hword
        cases hword
        exact hs.give_detach "true"
      rw [List.filter_cons_of_neg (by simp [hdetach]), otherSpellings_of_isDetach hdetach]
      exact ih h hrest hsame
    · obtain ⟨r', hr', hsame, hvalue⟩ := ih h hrest (hs.giveAll given)
      have hwords : optionWords (word :: rest) = word :: optionWords rest := by
        rw [optionWords_cons, hword]
      rw [List.filter_cons_of_pos (by simp [hdetach]),
        or_otherSpellings hwords (by simpa using hdetach), givenBy, hword]
      exact ⟨r', by rw [scan, hword]; exact hr', hsame, hvalue⟩
  | case3 s word rest given dir hword ih =>
    have hdetach : isDetach word = false := isDetach_eq_false (by simp [hword])
    have hrest : ∀ a ∈ keptWords rest, isDetach a = false := by
      rwa [keptWords_cons, hword] at hkept
    obtain ⟨r', hr', hsame, hvalue⟩ := ih h hrest ((hs.giveAll given).inDir dir)
    have hwords : optionWords (word :: rest) = word :: optionWords rest := by
      rw [optionWords_cons, hword]
    rw [List.filter_cons_of_pos (by simp [hdetach]), or_otherSpellings hwords hdetach, givenBy,
      hword]
    exact ⟨r', by rw [scan, hword]; exact hr', hsame, hvalue⟩
  | case5 s word given hword dir rest ih =>
    have hdetach : isDetach word = false := isDetach_eq_false (by simp [hword])
    rw [keptWords_cons, hword] at hkept
    obtain ⟨hdir, hrest⟩ := List.forall_mem_cons.mp hkept
    obtain ⟨r', hr', hsame, hvalue⟩ := ih h hrest ((hs.giveAll given).inDir dir)
    have hwords : optionWords (word :: dir :: rest) = word :: optionWords rest := by
      rw [optionWords_cons, hword]
    rw [List.filter_cons_of_pos (by simp [hdetach]), List.filter_cons_of_pos (by simp [hdir]),
      or_otherSpellings hwords hdetach, givenBy, hword]
    exact ⟨r', by rw [scan, hword]; exact hr', hsame, hvalue⟩
  | case6 s word given hword =>
    have hdetach : isDetach word = false := isDetach_eq_false (by simp [hword])
    obtain rfl := Option.some.inj h
    have hwords : optionWords [word] = word :: optionWords [] := by rw [optionWords_cons, hword]
    rw [List.filter_cons_of_pos (by simp [hdetach]), or_otherSpellings hwords hdetach, givenBy,
      hword]
    exact ⟨s'.giveAll given, by rw [scan, hword]; rfl, hs.giveAll given, rfl⟩
  | case8 s word rest hword hsub ih =>
    have hdetach : isDetach word = false := isDetach_eq_false (by simp [hword])
    have hrest : ∀ a ∈ keptWords rest, isDetach a = false := by
      rwa [keptWords_cons, hword] at hkept
    have hdaemon : Parsed.SameButDetach { s with subcommand := some "daemon" }
        { s' with subcommand := some "daemon" } := ⟨hs.value, hs.configDir, rfl, hs.remaining⟩
    obtain ⟨r', hr', hsame, hvalue⟩ := ih h hrest hdaemon
    have hwords : optionWords (word :: rest) = word :: optionWords rest := by
      rw [optionWords_cons, hword]
    rw [List.filter_cons_of_pos (by simp [hdetach]), or_otherSpellings hwords hdetach, givenBy,
      hword]
    refine ⟨r', ?_, hsame, hvalue⟩
    rw [scan, hword]
    exact (if_pos (hs.subcommand.trans hsub)).trans hr'
  | case10 s word rest name hword htakes =>
    have hdetach : isDetach word = false := isDetach_eq_false (by simp [hword])
    obtain rfl := Option.some.inj h
    rw [keptWords_cons, hword] at hkept
    have hrest : rest.filter (!isDetach ·) = rest :=
      List.filter_eq_self.mpr fun a ha => by simp [hkept a ha]
    have hnone : otherSpellings (word :: rest) = [] := by
      rw [otherSpellings, optionWords_cons, hword]
      rfl
    rw [List.filter_cons_of_pos (by simp [hdetach]), hrest, hnone]
    refine ⟨{ s' with subcommand := some name, remaining := rest }, ?_,
      ⟨hs.value, hs.configDir, rfl, rfl⟩, rfl⟩
    rw [scan, hword]
    exact if_pos ⟨hs.subcommand.trans htakes.1, htakes.2⟩
  | case4 | case7 | case9 | case11 | case12 => cases h

end Reading

/-! ## 4. What the filter may not touch -/

section Touched

variable {takes : List String → Bool}

/-- What there is to know of a group's verbs. -/
theorem groupVerb_facts {group verb command : String} (h : groupVerb group verb = some command) :
    (isDetach group = false ∧ isDetach verb = false ∧ isDetach command = false) ∧
    (group = "daemon" ∨ group ∈ groupCommands) ∧
    (verb ≠ "daemon" ∧ verb.toList.head? ≠ some '-') ∧
    (command = group → verb ∉ groupCommands ++ clientCommands) := by
  have hall : ∀ g ∈ kGroups, ∀ v ∈ g.2,
      (isDetach g.1 = false ∧ isDetach v.1 = false ∧ isDetach v.2 = false) ∧
      (g.1 = "daemon" ∨ g.1 ∈ groupCommands) ∧
      (v.1 ≠ "daemon" ∧ v.1.toList.head? ≠ some '-') ∧
      (v.2 = g.1 → v.1 ∉ groupCommands ++ clientCommands) := by decide
  obtain ⟨verbs, hverbs, hverb⟩ := Option.bind_eq_some_iff.mp h
  exact hall _ (mem_of_lookup hverbs) _ (mem_of_lookup hverb)

theorem keep_groupVerb {group verb command : String} (h : groupVerb group verb = some command) :
    (!isDetach group) = true ∧ (!isDetach verb) = true ∧ (!isDetach command) = true := by
  obtain ⟨⟨hgroup, hverb, hcommand⟩, -⟩ := groupVerb_facts h
  simp [hgroup, hverb, hcommand]

/-- A flag begins no pair. -/
theorem groupVerb_of_isDetach {word : String} (h : isDetach word = true) (next : String) :
    groupVerb word next = none := by
  by_contra hsome
  obtain ⟨command, hcommand⟩ := Option.ne_none_iff_exists'.mp hsome
  simp [(groupVerb_facts hcommand).1.1] at h

theorem readWord_of_head {word : String} (h : word.toList.head? ≠ some '-')
    (hdaemon : word ≠ "daemon") :
    readWord word = if word ∈ groupCommands ++ clientCommands then .extras word else .other := by
  rw [readWord, if_neg hdaemon, readOptions_of_undeclared (undeclared_of_head h)]
  rfl

/-- A verb that has lost its group is refused, unless it is a subcommand and the first. -/
theorem scan_verb {group verb command : String} (h : groupVerb group verb = some command)
    (post : List String) : ∀ (between : List String) (s : Parsed),
    (∀ a ∈ between, (!isDetach a) = false) →
    (s.subcommand ≠ none ∨ verb ∉ groupCommands ++ clientCommands) →
    scan takes s (collapse groupVerb (between ++ verb :: post)) = none
  | [], s, _, hrefused => by
    have hsome : (groupVerb group verb).isSome := by simp [h]
    obtain ⟨-, -, ⟨hdaemon, hhead⟩, -⟩ := groupVerb_facts h
    rw [List.nil_append, collapse_cons_of_unpaired fun x _ => apart_groupVerb hsome x, scan,
      readWord_of_head hhead hdaemon]
    by_cases hcommand : verb ∈ groupCommands ++ clientCommands
    · rw [if_pos hcommand]
      exact if_neg fun hnone => (hrefused.resolve_right (not_not_intro hcommand)) hnone.1
    · rw [if_neg hcommand]
  | a :: between, s, hbetween, hrefused => by
    obtain ⟨ha, hbetween⟩ := List.forall_mem_cons.mp hbetween
    have hdetach : isDetach a = true := by simpa using ha
    rw [List.cons_append, collapse_cons_of_unpaired fun x _ => groupVerb_of_isDetach hdetach x,
      scan, readWord_of_isDetach hdetach]
    exact scan_verb h post between _ hbetween (by simpa using hrefused)

theorem scan_daemon_eq_some {word : String} (hword : readWord word = .daemon) (s : Parsed)
    (rest : List String) {r : Parsed} : scan takes s (word :: rest) = some r ↔
      s.subcommand = none ∧ scan takes { s with subcommand := some "daemon" } rest = some r := by
  rw [scan, hword]
  exact Option.ite_none_right_eq_some

theorem scan_extras_eq_some {word name : String} (hword : readWord word = .extras name)
    (s : Parsed) (rest : List String) {r : Parsed} : scan takes s (word :: rest) = some r ↔
      (s.subcommand = none ∧ takes rest = true) ∧
        { s with subcommand := some name, remaining := rest } = r := by
  rw [scan, hword]
  exact Option.ite_none_right_eq_some.trans (and_congr_right fun _ => Option.some_inj)

/-- A group that stands where a subcommand does, its verb behind dropped words, is no start of the
daemon. -/
theorem scan_group {group verb command : String} (h : groupVerb group verb = some command)
    {between : List String} (hbetween : ∀ a ∈ between, (!isDetach a) = false) (post : List String)
    (s : Parsed) {r : Parsed} (hgroup : r.subcommand.all (!groupCommands.contains ·) = true) :
    scan takes s (group :: collapse groupVerb (between ++ verb :: post)) ≠ some r := by
  intro hscan
  rcases (groupVerb_facts h).2.1 with rfl | hmem
  · obtain ⟨-, hrest⟩ := (scan_daemon_eq_some (if_pos rfl) s _).mp hscan
    rw [scan_verb h post between _ hbetween (.inl (by simp))] at hrest
    cases hrest
  · have hdaemon : group ≠ "daemon" := by
      rintro rfl
      exact absurd hmem (by decide)
    have hword : readWord group = .extras group := by
      rw [readWord, if_neg hdaemon, if_pos (List.mem_append_left _ hmem)]
    obtain ⟨-, rfl⟩ := (scan_extras_eq_some hword s _).mp hscan
    simp [hmem] at hgroup

/-- Readings that agree in the end took the same value for `--config-dir`, and it was not
dropped. -/
theorem same_value {rest ws ws' : List String} {dir dir' : String} {s s' r r' : Parsed}
    (hws : collapse groupVerb rest = dir :: ws)
    (hws' : collapse groupVerb (rest.filter (!isDetach ·)) = dir' :: ws') (hs : s.SameButDetach s')
    (h : scan takes (s.inDir dir) ws = some r) (h' : scan takes (s'.inDir dir') ws' = some r')
    (hr : r.SameButDetach r') :
    dir' = dir ∧ isDetach dir' = false ∧ ∃ rest₂, rest₂.length < rest.length ∧
      ws = collapse groupVerb rest₂ ∧ ws' = collapse groupVerb (rest₂.filter (!isDetach ·)) ∧
      (PairAcross groupVerb (!isDetach ·) rest → PairAcross groupVerb (!isDetach ·) rest₂) := by
  have hsame := eq_of_scan_inDir h h' hs.configDir hr.configDir
  have hkept := forall_keep_collapse keep_groupVerb (fun x hx => (List.mem_filter.mp hx).2) dir'
    (hws' ▸ List.mem_cons_self)
  cases rest with
  | nil => cases hws
  | cons b behind =>
    obtain ⟨w, rest₂, hw, hsuffix, hcases⟩ :=
      collapse_first apart_groupVerb keep_groupVerb b behind
    obtain ⟨rfl, rfl⟩ := List.cons.inj (hws.symm.trans hw)
    rcases hcases with ⟨hdropped, -, -⟩ | ⟨-, hf, hmore⟩
      | ⟨between, verb, c, post, rfl, rfl, hbetween, hc, hf, -⟩
    · rw [← hsame] at hdropped
      simp [hdropped] at hkept
    · exact ⟨hsame, by simpa using hkept, rest₂, Nat.lt_succ_of_le hsuffix.length_le, rfl,
        (List.cons.inj (hws'.symm.trans hf)).2, hmore⟩
    · -- the value and a verb would become the command that the child takes for the value
      obtain ⟨rfl, -⟩ := List.cons.inj (hws'.symm.trans hf)
      have hrefused := (groupVerb_facts hc).2.2.2 hsame
      rw [scan_verb hc post between _ hbetween (.inr hrefused)] at h
      cases h

/-- **A child that reads the same has lost nothing**: no pair came about, and no value or argument
was dropped. -/
theorem untouched_of_scan {r r' : Parsed} (args : List String) {s s' : Parsed}
    (h : scan takes s (collapse groupVerb args) = some r)
    (hgroup : r.subcommand.all (!groupCommands.contains ·) = true) (hs : s.SameButDetach s')
    (h' : scan takes s' (collapse groupVerb (args.filter (!isDetach ·))) = some r')
    (hr : r.SameButDetach r') :
    ¬ PairAcross groupVerb (!isDetach ·) args ∧
      ∀ a ∈ keptWords (collapse groupVerb args), isDetach a = false := by
  match args with
  | [] => exact ⟨not_pairAcross_nil, List.forall_mem_nil _⟩
  | a :: tail =>
    obtain ⟨w, rest, hw, hsuffix, hcases⟩ :=
      collapse_first apart_groupVerb keep_groupVerb a tail
    rw [hw] at h ⊢
    have hsmaller : rest.length < (a :: tail).length := Nat.lt_succ_of_le hsuffix.length_le
    rcases hcases with ⟨hdrop, hf, hmore⟩ | ⟨hkept, hf, hmore⟩
      | ⟨between, b, c, post, rfl, rfl, hbetween, hc, hf, -⟩
    · -- the flag itself
      have hword := readWord_of_isDetach (by simpa using hdrop)
      have hscan : scan takes (s.give .detach "true") (collapse groupVerb rest) = some r := by
        rw [scan, hword] at h
        exact h
      rw [hf] at h'
      obtain ⟨hno, hkeeps⟩ :=
        untouched_of_scan rest hscan hgroup (hs.give_detach "true") h' hr
      rw [keptWords_cons, hword]
      exact ⟨fun hacross => hno (hmore hacross), hkeeps⟩
    · rw [hf] at h'
      have hgoes : ∀ {s₁ s₁' : Parsed}, scan takes s₁ (collapse groupVerb rest) = some r →
          s₁.SameButDetach s₁' →
          scan takes s₁' (collapse groupVerb (rest.filter (!isDetach ·))) = some r' →
          ¬ PairAcross groupVerb (!isDetach ·) (a :: tail) ∧
            ∀ b ∈ keptWords (collapse groupVerb rest), isDetach b = false := by
        intro s₁ s₁' h₁ hs₁ h₁'
        obtain ⟨hno, hkeeps⟩ := untouched_of_scan rest h₁ hgroup hs₁ h₁' hr
        exact ⟨fun hacross => hno (hmore hacross), hkeeps⟩
      rw [keptWords_cons]
      rcases hword : readWord w with ⟨given, ending⟩ | _ | name | _
      · rw [scan, hword] at h h'
        cases ending with
        | plain => exact hgoes h (hs.giveAll given) h'
        | dir dir => exact hgoes h ((hs.giveAll given).inDir dir) h'
        | wantsDir =>
          cases hws : collapse groupVerb rest with
          | nil =>
            rw [hws] at h
            cases h
          | cons dir ws =>
            cases hws' : collapse groupVerb (rest.filter (!isDetach ·)) with
            | nil =>
              rw [hws'] at h'
              cases h'
            | cons dir' ws' =>
              rw [hws] at h
              rw [hws'] at h'
              obtain ⟨rfl, hdir, rest₂, hshorter, rfl, rfl, hmore₂⟩ :=
                same_value hws hws' (hs.giveAll given) h h' hr
              have hmuch : rest₂.length < (a :: tail).length := hshorter.trans hsmaller
              obtain ⟨hno, hkeeps⟩ :=
                untouched_of_scan rest₂ h hgroup ((hs.giveAll given).inDir dir') h' hr
              exact ⟨fun hacross => hno (hmore₂ (hmore hacross)),
                List.forall_mem_cons.mpr ⟨hdir, hkeeps⟩⟩
        | mark =>
          cases rest with
          | nil => exact ⟨fun hacross => not_pairAcross_nil (hmore hacross), List.forall_mem_nil _⟩
          | cons b behind =>
            obtain ⟨w₂, rest₂, hw₂, -⟩ := collapse_first apart_groupVerb keep_groupVerb b behind
            rw [hw₂] at h
            cases h
      · obtain ⟨hsub, hrest⟩ := (scan_daemon_eq_some hword s _).mp h
        obtain ⟨hsub', hrest'⟩ := (scan_daemon_eq_some hword s' _).mp h'
        have hdaemon : Parsed.SameButDetach { s with subcommand := some "daemon" }
            { s' with subcommand := some "daemon" } := ⟨hs.value, hs.configDir, rfl, hs.remaining⟩
        exact hgoes hrest hdaemon hrest'
      · obtain ⟨-, rfl⟩ := (scan_extras_eq_some hword s _).mp h
        obtain ⟨-, rfl⟩ := (scan_extras_eq_some hword s' _).mp h'
        have hall := forall_keep_of_collapse_eq keep_groupVerb hr.remaining
        refine ⟨fun hacross => not_pairAcross_of_forall_keep hall (hmore hacross), ?_⟩
        intro b hb
        simpa using forall_keep_collapse keep_groupVerb hall b hb
      · rw [scan, hword] at h
        cases h
    · -- a group at the command position, and its verb behind the dropped words
      exact absurd h (scan_group hc hbetween post s hgroup)
termination_by args.length
decreasing_by
  · exact hsmaller
  · exact hsmaller
  · exact hmuch

end Touched

/-! ## 5. The child starts once -/

section Child

variable {flagValue : String → Option Bool} {takes : List String → Bool}
  {parse : Parsed → List String → Option Parsed} {argv : List String} {r r' : Parsed}

theorem parseArgv_eq_some_iff (h : ReadsDeclared flagValue takes parse) :
    parseArgv parse argv = some r ↔
      scan takes {} (collapse groupVerb argv.tail) = some r ∧ r.settled flagValue = true := by
  have hwords : (normalizeGroupVerbs argv).tail = collapse groupVerb argv.tail := by
    cases argv <;> rfl
  rw [parseArgv, hwords, h.parse_eq, readDeclared, Option.filter_eq_some_iff]

/-- The child's flags make sense if the parent's do, but for the one that it lost. -/
theorem settled_of_same (hr : r.settled flagValue = true) (hsame : r.SameButDetach r')
    (hdetach : ∀ value, r'.value .detach = some value → (flagValue value).isSome) :
    r'.settled flagValue = true := by
  obtain ⟨hdirs, hflags⟩ := Parsed.settled_iff.mp hr
  refine Parsed.settled_iff.mpr ⟨hsame.configDir ▸ hdirs, fun flag value hvalue => ?_⟩
  by_cases hflag : flag = .detach
  · subst hflag
    exact hdetach value hvalue
  · exact hflags flag value ((hsame.value flag hflag).symm.trans hvalue)

theorem startsDaemon_of_same (hsame : r.SameButDetach r') :
    r'.startsDaemon flagValue = r.startsDaemon flagValue := by
  simp [Parsed.startsDaemon, Parsed.isOn, hsame.subcommand, hsame.value .daemon (by decide)]

/-- **A detached child starts the daemon, once, and with everything else unchanged** exactly when
the filter takes the flag away and nothing else. -/
theorem child_starts_once_iff (h : ReadsDeclared flagValue takes parse)
    (hread : parseArgv parse argv = some r) (hstart : r.startsDetached flagValue = true)
    (self : String) :
    ChildStartsOnce flagValue parse self argv r ↔ PlainlyDetached flagValue argv.tail := by
  obtain ⟨hscan, hsettled⟩ := (parseArgv_eq_some_iff h).mp hread
  have hdaemon : r.startsDaemon flagValue = true := (Bool.and_eq_true_iff.mp hstart).1
  have hgroup : r.subcommand.all (!groupCommands.contains ·) = true :=
    (Bool.and_eq_true_iff.mp hdaemon).1
  have hchild : ∀ {r'}, parseArgv parse (childArgs self argv) = some r' ↔
      scan takes {} (collapse groupVerb (argv.tail.filter (!isDetach ·))) = some r' ∧
        r'.settled flagValue = true := parseArgv_eq_some_iff h
  have hinit : Parsed.SameButDetach {} {} := ⟨fun _ _ => rfl, rfl, rfl, rfl⟩
  constructor
  · rintro ⟨r', hread', -, hoff, hsame⟩
    obtain ⟨hscan', hsettled'⟩ := hchild.mp hread'
    obtain ⟨hno, hkeeps⟩ := untouched_of_scan argv.tail hscan hgroup hinit hscan' hsame
    refine ⟨hno, hkeeps, fun value hvalue => ?_⟩
    rw [collapse_filter apart_groupVerb keep_groupVerb _ hno] at hscan'
    obtain ⟨r₁, hscan₁, -, hlast⟩ := scan_filter hscan hkeeps hinit
    obtain rfl : r' = r₁ := Option.some.inj (hscan'.symm.trans hscan₁)
    rw [hvalue, Option.some_or] at hlast
    obtain ⟨b, hb⟩ := Option.isSome_iff_exists.mp ((Parsed.settled_iff.mp hsettled').2 _ _ hlast)
    cases b with
    | false => exact hb
    | true => simp [Parsed.isOn, hlast, hb] at hoff
  · rintro ⟨hno, hkeeps, hspelling⟩
    obtain ⟨r', hscan', hsame, hlast⟩ := scan_filter hscan hkeeps hinit
    rw [← collapse_filter apart_groupVerb keep_groupVerb _ hno] at hscan'
    have hfalse : ∀ value, r'.value .detach = some value → flagValue value = some false := by
      intro value hvalue
      refine hspelling value ?_
      rw [hlast] at hvalue
      simpa [Parsed.value] using hvalue
    have hsettled' := settled_of_same hsettled hsame fun value hvalue => by
      rw [hfalse value hvalue]
      rfl
    refine ⟨r', hchild.mpr ⟨hscan', hsettled'⟩, (startsDaemon_of_same hsame).trans hdaemon, ?_,
      hsame⟩
    cases hvalue : r'.value .detach with
    | none => simp [Parsed.isOn, hvalue]
    | some value => simp [Parsed.isOn, hvalue, hfalse value hvalue]

end Child

/-- Words for yes and no, as a flag's value. -/
def flagWord (value : String) : Option Bool :=
  if value ∈ ["true", "on", "yes", "enable", "1", "+"] then some true
  else if value ∈ ["false", "off", "no", "disable", "0", "-"] then some false
  else none

/-- A subcommand that is asked for help prints it, and the program ends. -/
def noHelp (words : List String) : Bool := words.all fun word => word != "-h" && word != "--help"

theorem child_starts_once_plain :
    ChildStartsOnce flagWord (readDeclared flagWord noHelp) "/usr/bin/logosctl"
      ["logosctl", "-D", "--config-dir", "s", "--detach"]
      { flags := [(.detach, "true"), (.daemon, "true")], configDir := ["s"] } := by
  refine (child_starts_once_iff (readsDeclared_readDeclared rfl noHelp) (by decide) (by decide)
    _).mpr ⟨?_, by decide, by decide⟩
  rintro ⟨pre, group, between, verb, post, hargs, -, -, hpair⟩
  have hmem : group ∈ ["-D", "--config-dir", "s", "--detach"] := by
    rw [show ["-D", "--config-dir", "s", "--detach"] = _ from hargs]
    simp
  have hno : ∀ word ∈ ["-D", "--config-dir", "s", "--detach"], kGroups.lookup word = none := by
    decide
  simp [groupVerb, hno group hmem] at hpair

/-- `-Dd` is left in the child's arguments, and the child detaches in its turn, whatever reader
keeps the rules. -/
theorem combined_flags_detach_again :
    ¬ ∃ (flagValue : String → Option Bool) (takes : List String → Bool)
      (parse : Parsed → List String → Option Parsed), ReadsDeclared flagValue takes parse ∧
      ∀ (self : String) (argv : List String) (r : Parsed), parseArgv parse argv = some r →
        r.startsDetached flagValue = true → ChildStartsOnce flagValue parse self argv r := by
  rintro ⟨flagValue, takes, parse, h, hall⟩
  have hword : readWord "-Dd" = .options ⟨[(.daemon, "true"), (.detach, "true")], .plain⟩ := by
    decide
  have hon : ∀ flag ∈ [Flag.detach, Flag.daemon],
      Parsed.value { flags := [(.detach, "true"), (.daemon, "true")] } flag = some "true" := by
    decide
  have hdetach := hon .detach (by decide)
  have hdaemon := hon .daemon (by decide)
  have hread : ∀ program, parseArgv parse [program, "-Dd"]
      = some { flags := [(.detach, "true"), (.daemon, "true")] } := by
    intro program
    refine (parseArgv_eq_some_iff h).mpr ⟨?_, ?_⟩
    · rw [List.tail_cons, collapse, scan, hword]
      rfl
    · simp [Parsed.settled, hdetach, hdaemon, h.value_true]
  obtain ⟨r', hread', -, hoff, -⟩ := hall "/usr/bin/logosctl" _ _ (hread "logosctl")
    (by simp [Parsed.startsDetached, Parsed.startsDaemon, Parsed.isOn, hdetach, hdaemon,
      h.value_true])
  obtain rfl := Option.some.inj ((hread "/usr/bin/logosctl").symm.trans hread')
  simp [Parsed.isOn, hdetach, h.value_true] at hoff

end Logosctl.CommandLine
