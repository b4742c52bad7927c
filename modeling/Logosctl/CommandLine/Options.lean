/-
# The options that `main` declares

`main` declares its options and subcommands and leaves reading the words to CLI11, which is not
part of this repository.  So the reader is a parameter here, and what is taken from CLI11's
documentation is a rule each: how a flag may be spelled, that short flags may stand in one word,
that a flag may carry a value, where `--config-dir` has its value, what a subcommand keeps, that
the last value of a flag counts, and that anything else is refused.

The rules settle every command line.  `scan` follows them word by word, and every reader that
keeps them is `scan` with the values checked at the end.
-/
import Mathlib.Data.List.TakeWhile
import Logosctl.CommandLine

namespace Logosctl.CommandLine

/-! ## 1. What is declared -/

/-- The flags of a run.  `--help` and `--version` end it before it has begun. -/
inductive Flag
  | verbose
  | json
  | human
  | quiet
  | daemon
  | detach
deriving DecidableEq, Repr

def longNames : List (String × Flag) :=
  [("verbose", .verbose), ("json", .json), ("no-json", .human), ("human", .human),
   ("quiet", .quiet), ("detach", .detach)]

def shortNames : List (Char × Flag) :=
  [('v', .verbose), ('j', .json), ('q', .quiet), ('D', .daemon), ('d', .detach)]

/-- The subcommands that `main` runs, or turns down, before it looks at the daemon flags. -/
def groupCommands : List String := ["daemon-config", "client-config", "module", "token", "client"]

def clientCommands : List String :=
  ["status", "load-module", "unload-module", "reload-module", "list-modules", "module-info",
   "info", "call", "watch", "stats", "stop", "issue-token", "revoke-token", "list-tokens",
   "package", "catalog", "key", "install", "search"]

/-- What has been read: each flag with the values it was given, the latest first, the values of
`--config-dir`, and the subcommand with the words it keeps. -/
structure Parsed where
  flags : List (Flag × String) := []
  configDir : List String := []
  subcommand : Option String := none
  remaining : List String := []
deriving DecidableEq, Repr

namespace Parsed

def give (s : Parsed) (flag : Flag) (value : String) : Parsed :=
  { s with flags := (flag, value) :: s.flags }

def inDir (s : Parsed) (dir : String) : Parsed := { s with configDir := dir :: s.configDir }

/-- The value that counts. -/
def value (s : Parsed) (flag : Flag) : Option String := s.flags.lookup flag

def isOn (flagValue : String → Option Bool) (s : Parsed) (flag : Flag) : Bool :=
  (s.value flag).bind flagValue == some true

/-- Every value that counts is a truth value, and `--config-dir` was given once at most. -/
def settled (flagValue : String → Option Bool) (s : Parsed) : Bool :=
  s.configDir.length ≤ 1 && s.flags.all fun given => ((s.value given.1).bind flagValue).isSome

end Parsed

/-! ## 2. The rules -/

/-- A word that is no spelling of an option. -/
def Undeclared (word : String) : Prop :=
  word ≠ "--" ∧
  (∀ name ∈ "config-dir" :: longNames.map Prod.fst,
    word ≠ "--" ++ name ∧ ∀ value, word ≠ "--" ++ name ++ "=" ++ value) ∧
  ∀ c ∈ shortNames.map Prod.fst, ∀ cs, word ≠ String.ofList ('-' :: c :: cs)

/-- What is taken from CLI11's documentation, for the options and subcommands declared here.
`parse s words` is what it makes of the words behind those that gave `s`; `flagValue` reads the
value of a flag, and `takes` says whether a subcommand takes the words behind it, which it does
not where they ask for help. -/
structure ReadsDeclared (flagValue : String → Option Bool) (takes : List String → Bool)
    (parse : Parsed → List String → Option Parsed) : Prop where
  value_true : flagValue "true" = some true
  done : ∀ s, parse s [] = if s.settled flagValue then some s else none
  long : ∀ s name flag rest, (name, flag) ∈ longNames →
    parse s (("--" ++ name) :: rest) = parse (s.give flag "true") rest
  /-- `--detach=true`; with nothing behind the sign it is the flag alone. -/
  long_value : ∀ s name flag value rest, (name, flag) ∈ longNames →
    parse s (("--" ++ name ++ "=" ++ value) :: rest)
      = parse (s.give flag (if value = "" then "true" else value)) rest
  short : ∀ s c flag rest, (c, flag) ∈ shortNames →
    parse s (String.ofList ['-', c] :: rest) = parse (s.give flag "true") rest
  /-- `-Dd` is `-D` and then `-d`. -/
  short_combined : ∀ s c flag cs rest, (c, flag) ∈ shortNames → cs ≠ [] →
    parse s (String.ofList ('-' :: c :: cs) :: rest)
      = parse (s.give flag "true") (String.ofList ('-' :: cs) :: rest)
  /-- The value of an option is the next word, whatever it is. -/
  dir : ∀ s dir rest, parse s ("--config-dir" :: dir :: rest) = parse (s.inDir dir) rest
  dir_missing : ∀ s, parse s ["--config-dir"] = none
  dir_attached : ∀ s dir rest, dir ≠ "" →
    parse s (("--config-dir=" ++ dir) :: rest) = parse (s.inDir dir) rest
  dir_attached_nothing : ∀ s rest,
    parse s ("--config-dir=" :: rest) = parse s ("--config-dir" :: rest)
  /-- Options behind `daemon` fall through to the ones declared here. -/
  daemon : ∀ s rest, s.subcommand = none →
    parse s ("daemon" :: rest) = parse { s with subcommand := some "daemon" } rest
  /-- The other subcommands keep what stands behind them. -/
  extras : ∀ s name rest, s.subcommand = none → name ∈ groupCommands ++ clientCommands →
    parse s (name :: rest)
      = if takes rest then parse { s with subcommand := some name, remaining := rest } [] else none
  /-- Behind `--` all words are positional, and none is declared. -/
  mark : ∀ s rest, parse s ("--" :: rest) = if rest = [] then parse s [] else none
  /-- One subcommand at most, and no other word.  Two marks of CLI11's own are left out: `++`, which
  ends a subcommand, and a `--` among the words that a subcommand keeps. -/
  refuses : ∀ s word rest, Undeclared word →
    (s.subcommand = none → word ≠ "daemon" ∧ word ∉ groupCommands ++ clientCommands) →
    parse s (word :: rest) = none

/-! ## 3. Reading word by word -/

/-- How a word of options ends: with flags only, with the value of `--config-dir`, asking for
that value, or with the mark that ends the options. -/
inductive Ending
  | plain
  | dir (value : String)
  | wantsDir
  | mark
deriving DecidableEq, Repr

/-- A word of options: the flags it gives, in order, and its end. -/
structure Options where
  given : List (Flag × String)
  ending : Ending
deriving DecidableEq, Repr

/-- What stands behind `--`. -/
def longWord (name : List Char) : Option Options :=
  let key := String.ofList (name.takeWhile (· ≠ '='))
  let value := String.ofList (name.dropWhile (· ≠ '=')).tail
  if name = [] then some ⟨[], .mark⟩
  else if key = "config-dir" then some ⟨[], if value = "" then .wantsDir else .dir value⟩
  else (longNames.lookup key).map fun flag =>
    ⟨[(flag, if value = "" then "true" else value)], .plain⟩

/-- What stands behind `-`. -/
def dashed : List Char → Option Options
  | [] => none
  | c :: cs =>
    if c = '-' then longWord cs
    else (shortNames.lookup c).bind fun flag =>
      if cs = [] then some ⟨[(flag, "true")], .plain⟩
      else (dashed cs).map fun o => ⟨(flag, "true") :: o.given, o.ending⟩

inductive Word
  | options (o : Options)
  | daemon
  | extras (name : String)
  | other
deriving DecidableEq, Repr

def readOptions : List Char → Option Options
  | '-' :: cs => dashed cs
  | _ => none

def readWord (word : String) : Word :=
  if word = "daemon" then .daemon
  else if word ∈ groupCommands ++ clientCommands then .extras word
  else ((readOptions word.toList).map Word.options).getD .other

def Parsed.giveAll (s : Parsed) (given : List (Flag × String)) : Parsed :=
  given.foldl (fun s g => s.give g.1 g.2) s

/-- The words one after the other. -/
def scan (takes : List String → Bool) (s : Parsed) : List String → Option Parsed
  | [] => some s
  | word :: rest =>
    match readWord word with
    | .options ⟨given, .plain⟩ => scan takes (s.giveAll given) rest
    | .options ⟨given, .dir dir⟩ => scan takes ((s.giveAll given).inDir dir) rest
    | .options ⟨given, .wantsDir⟩ =>
      match rest with
      | [] => none
      | dir :: rest => scan takes ((s.giveAll given).inDir dir) rest
    | .options ⟨given, .mark⟩ => if rest = [] then some (s.giveAll given) else none
    | .daemon =>
      if s.subcommand = none then scan takes { s with subcommand := some "daemon" } rest else none
    | .extras name =>
      if s.subcommand = none ∧ takes rest then
        some { s with subcommand := some name, remaining := rest }
      else none
    | .other => none

/-- The reader that the rules describe. -/
def readDeclared (flagValue : String → Option Bool) (takes : List String → Bool) (s : Parsed)
    (words : List String) : Option Parsed :=
  (scan takes s words).filter (·.settled flagValue)

/-! ## 4. The rules settle every command line -/

/-- How reading goes on behind a word of options. -/
def after (parse : Parsed → List String → Option Parsed) (s : Parsed) (rest : List String) :
    Option Options → Option Parsed
  | none => none
  | some ⟨given, .plain⟩ => parse (s.giveAll given) rest
  | some ⟨given, .dir dir⟩ => parse ((s.giveAll given).inDir dir) rest
  | some ⟨given, .wantsDir⟩ =>
    match rest with
    | [] => none
    | dir :: rest => parse ((s.giveAll given).inDir dir) rest
  | some ⟨given, .mark⟩ => if rest = [] then parse (s.giveAll given) [] else none

/-- The names behind `--`. -/
def optionNames : List String := "config-dir" :: longNames.map Prod.fst

theorem no_sign_in_optionNames : ∀ name ∈ optionNames, ∀ c ∈ name.toList, c ≠ '=' := by
  have hall : optionNames.all (fun name => name.toList.all (· != '=')) = true := by decide
  intro name hname c hc
  simpa using List.all_eq_true.mp (List.all_eq_true.mp hall name hname) c hc

theorem takeWhile_no_sign {key : List Char} (hkey : ∀ c ∈ key, c ≠ '=') {sign : List Char}
    (hsign : sign = [] ∨ ∃ value, sign = '=' :: value) :
    (key ++ sign).takeWhile (· ≠ '=') = key ∧ (key ++ sign).dropWhile (· ≠ '=') = sign := by
  have hkey' : ∀ c ∈ key, decide (c ≠ '=') = true := by simpa using hkey
  rw [List.takeWhile_append_of_pos hkey', List.dropWhile_append_of_pos hkey']
  rcases hsign with rfl | ⟨value, rfl⟩ <;> simp

/-- Every name is a key, with a sign and a value behind it or not. -/
theorem exists_key (name : List Char) : ∃ key sign : List Char, name = key ++ sign ∧
    (∀ c ∈ key, c ≠ '=') ∧ (sign = [] ∨ ∃ value, sign = '=' :: value) := by
  refine ⟨name.takeWhile (· ≠ '='), name.dropWhile (· ≠ '='),
    (List.takeWhile_append_dropWhile).symm, ?_, ?_⟩
  · intro c hc
    simpa using List.mem_takeWhile_imp hc
  · cases hdrop : name.dropWhile (· ≠ '=') with
    | nil => exact .inl rfl
    | cons c value =>
      have hc : (c :: value).head? = some c := rfl
      rw [← hdrop] at hc
      have := List.head?_dropWhile_not (· ≠ '=') name
      rw [hc] at this
      exact .inr ⟨value, by simpa using this⟩

/-- What `longWord` makes of a key with a value or without. -/
theorem longWord_eq {key : String} (hkey : ∀ c ∈ key.toList, c ≠ '=') {sign : List Char}
    (hsign : sign = [] ∨ ∃ value, sign = '=' :: value) (hne : key.toList ++ sign ≠ []) :
    longWord (key.toList ++ sign)
      = if key = "config-dir" then
          some ⟨[], if String.ofList sign.tail = "" then .wantsDir
            else .dir (String.ofList sign.tail)⟩
        else (longNames.lookup key).map fun flag =>
          ⟨[(flag, if String.ofList sign.tail = "" then "true" else String.ofList sign.tail)],
            .plain⟩ := by
  obtain ⟨htake, hdrop⟩ := takeWhile_no_sign hkey hsign
  simp only [longWord, htake, hdrop, if_neg hne, String.ofList_toList]

/-- A word behind `--` with a key that is no option's name. -/
theorem undeclared_of_key {key : String} (hkey : ∀ c ∈ key.toList, c ≠ '=') {sign : List Char}
    (hsign : sign = [] ∨ ∃ value, sign = '=' :: value) (hne : key.toList ++ sign ≠ [])
    (hname : key ∉ optionNames) :
    Undeclared (String.ofList ('-' :: '-' :: (key.toList ++ sign))) := by
  have hother : ∀ name ∈ optionNames, ∀ tail : List Char,
      tail = [] ∨ (∃ value, tail = '=' :: value) → key.toList ++ sign ≠ name.toList ++ tail := by
    intro name hmem tail htail heq
    have hsame := (takeWhile_no_sign hkey hsign).1
    rw [heq, (takeWhile_no_sign (no_sign_in_optionNames name hmem) htail).1] at hsame
    exact hname (String.toList_injective hsame ▸ hmem)
  refine ⟨fun h => ?_, fun name hmem => ⟨fun h => ?_, fun value h => ?_⟩, fun c hc cs h => ?_⟩
  · have := congrArg String.toList h
    simp at this
    exact hne (by simp [this])
  · have := congrArg String.toList h
    exact hother name hmem [] (.inl rfl) (by simpa using this)
  · have := congrArg String.toList h
    exact hother name hmem ('=' :: value.toList) (.inr ⟨_, rfl⟩) (by simpa using this)
  · have := congrArg String.toList h
    simp only [String.toList_ofList, List.cons.injEq, true_and] at this
    obtain ⟨rfl, -⟩ := this
    exact absurd hc (by decide)

/-- A word with one dash and a character that is no short flag. -/
theorem undeclared_of_short {c : Char} (hdash : c ≠ '-') (hc : c ∉ shortNames.map Prod.fst)
    (cs : List Char) : Undeclared (String.ofList ('-' :: c :: cs)) := by
  refine ⟨fun h => ?_, fun name _ => ⟨fun h => ?_, fun value h => ?_⟩, fun d hd ds h => ?_⟩
  all_goals
    have := congrArg String.toList h
    simp only [String.toList_ofList] at this
  · simp at this
    exact hdash this.1
  · simp at this
    exact hdash this.1
  · simp at this
    exact hdash this.1
  · simp only [List.cons.injEq, true_and] at this
    exact hc (this.1 ▸ hd)

/-- A word without a dash in front. -/
theorem undeclared_of_head {word : String} (h : word.toList.head? ≠ some '-') :
    Undeclared word := by
  refine ⟨?_, fun name _ => ⟨?_, fun value => ?_⟩, fun c _ cs => ?_⟩ <;>
  · rintro rfl
    simp at h

theorem ofList_long (key : String) :
    String.ofList ('-' :: '-' :: (key.toList ++ [])) = "--" ++ key :=
  String.toList_injective (by simp)

theorem ofList_attached (key : String) (value : List Char) :
    String.ofList ('-' :: '-' :: (key.toList ++ '=' :: value))
      = "--" ++ key ++ "=" ++ String.ofList value :=
  String.toList_injective (by simp)

/-- No subcommand begins with a dash. -/
theorem not_command_of_dash (cs : List Char) :
    String.ofList ('-' :: cs) ≠ "daemon"
      ∧ String.ofList ('-' :: cs) ∉ groupCommands ++ clientCommands := by
  have hno : ∀ name ∈ "daemon" :: (groupCommands ++ clientCommands),
      name.toList.head? ≠ some '-' := by decide
  have hhead : (String.ofList ('-' :: cs)).toList.head? = some '-' := by simp
  exact ⟨fun h => hno _ (h ▸ List.mem_cons_self) hhead,
    fun h => hno _ (List.mem_cons_of_mem _ h) hhead⟩

theorem mem_of_lookup {α β : Type} [BEq α] [LawfulBEq α] {a : α} {b : β} {l : List (α × β)}
    (h : l.lookup a = some b) : (a, b) ∈ l := by
  obtain ⟨before, behind, rfl, -⟩ := List.lookup_eq_some_iff.mp h
  simp

theorem notMem_keys_of_lookup {α β : Type} [BEq α] [LawfulBEq α] {a : α} {l : List (α × β)}
    (h : l.lookup a = none) : a ∉ l.map Prod.fst := by
  rintro hmem
  obtain ⟨entry, hin, rfl⟩ := List.mem_map.mp hmem
  simpa using List.lookup_eq_none_iff.mp h _ hin

section Rules

variable {flagValue : String → Option Bool} {takes : List String → Bool}
  {parse : Parsed → List String → Option Parsed}

/-- A word behind `--` reads as `longWord` says. -/
theorem ReadsDeclared.parse_longWord (h : ReadsDeclared flagValue takes parse) (s : Parsed)
    (name : List Char) (rest : List String) :
    parse s (String.ofList ('-' :: '-' :: name) :: rest)
      = after parse s rest (longWord name) := by
  by_cases hempty : name = []
  · subst hempty
    exact h.mark s rest
  · obtain ⟨key, sign, rfl, hkey, hsign⟩ := exists_key name
    obtain ⟨key, rfl⟩ : ∃ k : String, k.toList = key := ⟨String.ofList key, by simp⟩
    rw [longWord_eq hkey hsign hempty]
    by_cases hdir : key = "config-dir"
    · subst hdir
      rcases hsign with rfl | ⟨value, rfl⟩
      · cases rest with
        | nil => exact h.dir_missing s
        | cons dir rest => exact h.dir s dir rest
      · rw [ofList_attached]
        by_cases hvalue : String.ofList value = ""
        · have hgoes := h.dir_attached_nothing s rest
          simp only [hvalue, String.append_empty, List.tail_cons, if_true]
          cases rest with
          | nil => exact hgoes.trans (h.dir_missing s)
          | cons dir rest => exact hgoes.trans (h.dir s dir rest)
        · have hgoes := h.dir_attached s _ rest hvalue
          rw [List.tail_cons, if_pos rfl, if_neg hvalue]
          exact hgoes
    · rw [if_neg hdir]
      cases hlookup : longNames.lookup key with
      | none =>
        have hname : key ∉ optionNames := by
          rintro hmem
          rcases List.mem_cons.mp hmem with rfl | hmem
          · exact hdir rfl
          · exact notMem_keys_of_lookup hlookup hmem
        refine h.refuses s _ rest (undeclared_of_key hkey hsign hempty hname) fun _ => ?_
        exact not_command_of_dash _
      | some flag =>
        have hmem := mem_of_lookup hlookup
        rcases hsign with rfl | ⟨value, rfl⟩
        · rw [ofList_long]
          exact h.long s key flag rest hmem
        · rw [ofList_attached]
          exact h.long_value s key flag _ rest hmem

/-- A word behind `-` reads as `dashed` says: one short flag off, and the rest is such a word. -/
theorem ReadsDeclared.parse_dashed (h : ReadsDeclared flagValue takes parse)
    (rest : List String) : ∀ (cs : List Char) (s : Parsed),
    parse s (String.ofList ('-' :: cs) :: rest) = after parse s rest (dashed cs)
  | [], s => by
    refine h.refuses s _ rest ?_ fun _ => not_command_of_dash _
    refine ⟨by decide, ?_, ?_⟩
    · intro name _
      refine ⟨fun hword => ?_, fun value hword => ?_⟩ <;>
      · have := congrArg String.toList hword
        simp at this
    · intro c _ cs hword
      have := congrArg String.toList hword
      simp at this
  | c :: cs, s => by
    by_cases hdash : c = '-'
    · subst hdash
      rw [dashed, if_pos rfl]
      exact h.parse_longWord s cs rest
    · rw [dashed, if_neg hdash]
      cases hlookup : shortNames.lookup c with
      | none =>
        have hword := undeclared_of_short hdash (notMem_keys_of_lookup hlookup) cs
        exact h.refuses s _ rest hword fun _ => not_command_of_dash _
      | some flag =>
        have hmem := mem_of_lookup hlookup
        by_cases hlast : cs = []
        · subst hlast
          exact h.short s c flag rest hmem
        · rw [h.short_combined s c flag cs rest hmem hlast,
            ReadsDeclared.parse_dashed h rest cs (s.give flag "true")]
          simp only [Option.bind_some, if_neg hlast]
          rcases dashed cs with _ | ⟨given, ending⟩
          · rfl
          · cases ending <;> rfl

/-- One word more. -/
theorem ReadsDeclared.parse_cons (h : ReadsDeclared flagValue takes parse) (s : Parsed)
    (word : String) (rest : List String) :
    parse s (word :: rest) =
      match readWord word with
      | .options o => after parse s rest (some o)
      | .daemon =>
        if s.subcommand = none then parse { s with subcommand := some "daemon" } rest else none
      | .extras name =>
        if s.subcommand = none ∧ takes rest then
          parse { s with subcommand := some name, remaining := rest } []
        else none
      | .other => none := by
  have hcommands : ∀ name ∈ groupCommands ++ clientCommands, name.toList.head? ≠ some '-' := by
    decide
  by_cases hdaemon : word = "daemon"
  · subst hdaemon
    have hword : readWord "daemon" = .daemon := if_pos rfl
    rw [hword]
    by_cases hsub : s.subcommand = none
    · exact (h.daemon s rest hsub).trans (if_pos hsub).symm
    · have hundeclared : Undeclared "daemon" := undeclared_of_head (by decide)
      exact (h.refuses s _ rest hundeclared fun hnone => absurd hnone hsub).trans
        (if_neg hsub).symm
  by_cases hextras : word ∈ groupCommands ++ clientCommands
  · have hword : readWord word = .extras word := by rw [readWord, if_neg hdaemon, if_pos hextras]
    rw [hword]
    by_cases hsub : s.subcommand = none
    · simpa only [hsub, true_and] using h.extras s word rest hsub hextras
    · simp only [hsub, false_and, if_false]
      exact h.refuses s _ rest (undeclared_of_head (hcommands word hextras)) fun hnone =>
        absurd hnone hsub
  · rw [readWord, if_neg hdaemon, if_neg hextras]
    by_cases hdash : ∃ cs, word = String.ofList ('-' :: cs)
    · obtain ⟨cs, rfl⟩ := hdash
      rw [h.parse_dashed rest cs s, String.toList_ofList, readOptions]
      cases dashed cs <;> rfl
    · have hhead : word.toList.head? ≠ some '-' := by
        intro hhead
        obtain ⟨cs, hcs⟩ := List.head?_eq_some_iff.mp hhead
        exact hdash ⟨cs, by rw [← hcs, String.ofList_toList]⟩
      have hnone : readOptions word.toList = none := by
        cases hcs : word.toList with
        | nil => rfl
        | cons c cs =>
          have hc : c ≠ '-' := fun hc => hhead (by rw [hcs, hc]; rfl)
          simp [readOptions, hc]
      rw [hnone]
      exact h.refuses s _ rest (undeclared_of_head hhead) fun _ => ⟨hdaemon, hextras⟩

/-- **The rules settle every command line**: every reader that keeps them is `readDeclared`. -/
theorem ReadsDeclared.parse_eq (h : ReadsDeclared flagValue takes parse) (words : List String)
    (s : Parsed) : parse s words = readDeclared flagValue takes s words := by
  have hdone : ∀ s, parse s [] = (some s).filter (·.settled flagValue) := by
    intro s
    rw [h.done s, Option.filter_some]
  unfold readDeclared
  fun_induction scan takes s words with
  | case1 s => exact hdone s
  | case2 s word rest given hword ih => rw [h.parse_cons, hword]; exact ih
  | case3 s word rest given dir hword ih => rw [h.parse_cons, hword]; exact ih
  | case4 s word given hword => rw [h.parse_cons, hword]; rfl
  | case5 s word given hword dir rest ih => rw [h.parse_cons, hword]; exact ih
  | case6 s word given hword => rw [h.parse_cons, hword]; exact hdone _
  | case7 s word rest given hword hrest => rw [h.parse_cons, hword]; exact if_neg hrest
  | case8 s word rest hword hsub ih => rw [h.parse_cons, hword]; exact (if_pos hsub).trans ih
  | case9 s word rest hword hsub => rw [h.parse_cons, hword]; exact if_neg hsub
  | case10 s word rest name hword htakes =>
    rw [h.parse_cons, hword]
    exact (if_pos htakes).trans (hdone _)
  | case11 s word rest name hword htakes => rw [h.parse_cons, hword]; exact if_neg htakes
  | case12 s word rest hword => rw [h.parse_cons, hword]; rfl

end Rules

/-! ## 5. A reader that keeps them -/

theorem readWord_dash (cs : List Char) :
    readWord (String.ofList ('-' :: cs)) = ((dashed cs).map Word.options).getD .other := by
  obtain ⟨hdaemon, hextras⟩ := not_command_of_dash cs
  rw [readWord, if_neg hdaemon, if_neg hextras, String.toList_ofList, readOptions]

/-- A word behind `--` with an option's name. -/
theorem readWord_key {key : String} (hkey : key ∈ optionNames) {sign : List Char}
    (hsign : sign = [] ∨ ∃ value, sign = '=' :: value) :
    readWord (String.ofList ('-' :: '-' :: (key.toList ++ sign)))
      = (((if key = "config-dir" then
          some ⟨[], if String.ofList sign.tail = "" then .wantsDir
            else .dir (String.ofList sign.tail)⟩
        else (longNames.lookup key).map fun flag =>
          ⟨[(flag, if String.ofList sign.tail = "" then "true" else String.ofList sign.tail)],
            .plain⟩ : Option Options).map Word.options).getD .other) := by
  have hne : key.toList ++ sign ≠ [] := by
    have hnames : ∀ name ∈ optionNames, name.toList ≠ [] := by decide
    simp [hnames key hkey]
  rw [readWord_dash, dashed, if_pos rfl, longWord_eq (no_sign_in_optionNames key hkey) hsign hne]

theorem readWord_flag {name : String} {flag : Flag} (hmem : (name, flag) ∈ longNames)
    {sign : List Char} (hsign : sign = [] ∨ ∃ value, sign = '=' :: value) :
    readWord (String.ofList ('-' :: '-' :: (name.toList ++ sign)))
      = .options ⟨[(flag, if String.ofList sign.tail = "" then "true"
          else String.ofList sign.tail)], .plain⟩ := by
  have hnames : ∀ entry ∈ longNames,
      entry.1 ≠ "config-dir" ∧ longNames.lookup entry.1 = some entry.2 := by decide
  obtain ⟨hdir, hlookup⟩ := hnames _ hmem
  rw [readWord_key (List.mem_cons_of_mem _ (List.mem_map_of_mem hmem)) hsign, if_neg hdir, hlookup]
  rfl

theorem readWord_short {c : Char} {flag : Flag} (hmem : (c, flag) ∈ shortNames) (cs : List Char) :
    readWord (String.ofList ('-' :: c :: cs))
      = if cs = [] then .options ⟨[(flag, "true")], .plain⟩
        else ((dashed cs).map fun o => Word.options ⟨(flag, "true") :: o.given, o.ending⟩).getD
          .other := by
  have hnames : ∀ entry ∈ shortNames,
      entry.1 ≠ '-' ∧ shortNames.lookup entry.1 = some entry.2 := by decide
  obtain ⟨hdash, hlookup⟩ := hnames _ hmem
  rw [readWord_dash, dashed, if_neg hdash, hlookup, Option.bind_some]
  split_ifs with hlast
  · rfl
  · rw [Option.map_map]
    rfl

/-- Whatever is read as options is declared. -/
theorem readOptions_of_undeclared {word : String} (h : Undeclared word) :
    readOptions word.toList = none := by
  obtain ⟨hmark, hlong, hshort⟩ := h
  cases hcs : word.toList with
  | nil => rfl
  | cons c cs =>
    by_cases hc : c = '-'
    · subst hc
      obtain rfl : word = String.ofList ('-' :: cs) := by rw [← hcs, String.ofList_toList]
      rw [readOptions]
      cases cs with
      | nil => rfl
      | cons d ds =>
        by_cases hd : d = '-'
        · subst hd
          rw [dashed, if_pos rfl]
          have hempty : ds ≠ [] := by
            rintro rfl
            exact hmark (by decide)
          obtain ⟨key, sign, rfl, hkey, hsign⟩ := exists_key ds
          obtain ⟨key, rfl⟩ : ∃ k : String, k.toList = key := ⟨String.ofList key, by simp⟩
          have hname : key ∉ optionNames := by
            intro hmem
            rcases hsign with rfl | ⟨value, rfl⟩
            · exact (hlong key hmem).1 (ofList_long key)
            · exact (hlong key hmem).2 _ (ofList_attached key value)
          have hdir : key ≠ "config-dir" := fun h => hname (h ▸ List.mem_cons_self)
          have hlookup : longNames.lookup key = none := by
            cases hlookup : longNames.lookup key with
            | none => rfl
            | some flag =>
              exact absurd (List.mem_cons_of_mem _ (List.mem_map_of_mem (mem_of_lookup hlookup)))
                hname
          rw [longWord_eq hkey hsign hempty, if_neg hdir, hlookup, Option.map_none]
        · rw [dashed, if_neg hd]
          cases hlookup : shortNames.lookup d with
          | none => rfl
          | some flag =>
            exact absurd rfl (hshort d (List.mem_map_of_mem (mem_of_lookup hlookup)) ds)
    · simp [readOptions, hc]

theorem readWord_dir : readWord "--config-dir" = .options ⟨[], .wantsDir⟩ := by
  have hword := readWord_key (List.mem_cons_self : "config-dir" ∈ optionNames) (.inl rfl)
  rwa [ofList_long, List.tail_nil, if_pos rfl, if_pos rfl] at hword

/-- The rules can be kept: `readDeclared` keeps them. -/
theorem readsDeclared_readDeclared {flagValue : String → Option Bool}
    (htrue : flagValue "true" = some true) (takes : List String → Bool) :
    ReadsDeclared flagValue takes (readDeclared flagValue takes) where
  value_true := htrue
  done s := Option.filter_some
  long s name flag rest hmem := by
    have hword := readWord_flag hmem (.inl rfl)
    rw [ofList_long] at hword
    rw [readDeclared, scan, hword]
    rfl
  long_value s name flag value rest hmem := by
    have hword := readWord_flag hmem (.inr ⟨value.toList, rfl⟩)
    rw [ofList_attached, String.ofList_toList] at hword
    rw [readDeclared, scan, hword, List.tail_cons, String.ofList_toList]
    rfl
  short s c flag rest hmem := by
    rw [readDeclared, scan, readWord_short hmem]
    rfl
  short_combined s c flag cs rest hmem hcs := by
    rw [readDeclared, readDeclared, scan, scan, readWord_short hmem, if_neg hcs, readWord_dash]
    rcases dashed cs with _ | ⟨given, ending⟩
    · rfl
    · cases ending <;> rfl
  dir s dir rest := by rw [readDeclared, scan, readWord_dir]; rfl
  dir_missing s := by rw [readDeclared, scan, readWord_dir]; rfl
  dir_attached s dir rest hdir := by
    have hword := readWord_key (List.mem_cons_self : "config-dir" ∈ optionNames)
      (.inr ⟨dir.toList, rfl⟩)
    rw [ofList_attached, List.tail_cons, String.ofList_toList, if_pos rfl, if_neg hdir] at hword
    have hjoin : "--" ++ "config-dir" ++ "=" ++ dir = "--config-dir=" ++ dir := rfl
    rw [hjoin] at hword
    rw [readDeclared, scan, hword]
    rfl
  dir_attached_nothing s rest := by
    have hword : readWord "--config-dir=" = .options ⟨[], .wantsDir⟩ := by
      have hword := readWord_key (List.mem_cons_self : "config-dir" ∈ optionNames)
        (.inr ⟨[], rfl⟩)
      rwa [ofList_attached, List.tail_cons, if_pos rfl, if_pos rfl] at hword
    rw [readDeclared, readDeclared, scan, scan, hword, readWord_dir]
  daemon s rest hsub := by
    have hword : readWord "daemon" = .daemon := if_pos rfl
    rw [readDeclared, scan, hword]
    exact congrArg _ (if_pos hsub)
  extras s name rest hsub hmem := by
    have hdaemon : name ≠ "daemon" := by
      rintro rfl
      exact absurd hmem (by decide)
    rw [readDeclared, scan, readWord, if_neg hdaemon, if_pos hmem]
    by_cases htakes : takes rest
    · simp [hsub, htakes, readDeclared, scan]
    · simp [hsub, htakes]
  mark s rest := by
    have hword : readWord "--" = .options ⟨[], .mark⟩ := readWord_dash ['-']
    rw [readDeclared, scan, hword]
    by_cases hrest : rest = []
    · subst hrest
      rfl
    · rw [if_neg hrest]
      exact congrArg _ (if_neg hrest)
  refuses s word rest hword hcommand := by
    by_cases hsub : s.subcommand = none
    · obtain ⟨hdaemon, hextras⟩ := hcommand hsub
      rw [readDeclared, scan, readWord, if_neg hdaemon, if_neg hextras,
        readOptions_of_undeclared hword]
      rfl
    · rw [readDeclared, scan]
      by_cases hdaemon : word = "daemon"
      · rw [readWord, if_pos hdaemon]
        exact congrArg _ (if_neg hsub)
      · by_cases hextras : word ∈ groupCommands ++ clientCommands
        · rw [readWord, if_neg hdaemon, if_pos hextras]
          exact congrArg _ (if_neg fun h => hsub h.1)
        · rw [readWord, if_neg hdaemon, if_neg hextras, readOptions_of_undeclared hword]
          rfl

end Logosctl.CommandLine
