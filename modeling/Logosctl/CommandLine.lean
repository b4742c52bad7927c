/-
# The command line before it is parsed

`logosctl` has two-word commands (`daemon stop`, `token issue`); before anything is parsed,
`normalizeGroupVerbs` puts the one-word name of the subcommand in place of each group and verb.
It looks at every pair of neighbours behind the program's name, whatever they are there: the
words of a pair may as well be an option's value, or arguments of a call.

What the rewriting is for is stated beside it: the pair at the command position, behind the
program's name and the global options, becomes the subcommand, and the rest stays.
-/
import Logosctl.Library.Pairs

namespace Logosctl.CommandLine

open Library

/-! ## 1. The rewriting -/

/-- group -> verb -> internal subcommand -/
def kGroups : List (String × List (String × String)) :=
  [("daemon",
      [("config", "daemon-config"), ("start", "daemon"), ("stop", "stop"), ("status", "status")]),
   ("client", [("config", "client-config")]),
   ("module",
      [("ls", "list-modules"), ("list", "list-modules"), ("show", "module-info"),
       ("info", "module-info"), ("load", "load-module"), ("unload", "unload-module"),
       ("reload", "reload-module"), ("stats", "stats")]),
   ("token",
      [("issue", "issue-token"), ("ls", "list-tokens"), ("list", "list-tokens"),
       ("revoke", "revoke-token")])]

/-- The subcommand that a group and a verb stand for. -/
def groupVerb (group verb : String) : Option String :=
  (kGroups.lookup group).bind fun verbs => verbs.lookup verb

/-- `argv[0]` is the program path; groups are looked for behind it. -/
def normalizeGroupVerbs : List String → List String
  | [] => []
  | program :: args => program :: collapse groupVerb args

/-! ## 2. The command position -/

/-- The global flags, as `main` declares them. -/
def longFlags : List String :=
  ["--help", "--version", "--verbose", "--json", "--no-json", "--human", "--quiet", "--detach"]

def shortFlags : List Char := ['h', 'v', 'j', 'q', 'D', 'd']

/-- A flag with a value attached: `--detach=true`. -/
def longWithValue (names : List String) (arg : String) : Bool :=
  names.any fun name => (name.toList ++ ['=']).isPrefixOf arg.toList

/-- Short flags, also several in one token: `-qj`. -/
def isShortFlags (arg : String) : Bool :=
  match arg.toList with
  | '-' :: c :: cs => (c :: cs).all (shortFlags.contains ·)
  | _ => false

/-- A token that is a global option by itself, its value included. -/
def isGlobalOption (arg : String) : Bool :=
  longFlags.contains arg || longWithValue ("--config-dir" :: longFlags) arg || isShortFlags arg

/-- An option whose value is the next token: with nothing behind its sign it is `--config-dir`. -/
def wantsValue (arg : String) : Bool := arg == "--config-dir" || arg == "--config-dir="

/-- The global options that a command line begins with, with their values. -/
def globalOptions : List String → List String
  | [] => []
  | [arg] => if wantsValue arg || isGlobalOption arg then [arg] else []
  | arg :: next :: args =>
    if wantsValue arg then arg :: next :: globalOptions args
    else if isGlobalOption arg then arg :: globalOptions (next :: args)
    else []

/-- The command and what follows it. -/
def fromCommand (args : List String) : List String := args.drop (globalOptions args).length

/-- What the rewriting is for: the pair at the command position, and nothing else. -/
def normalizeAtCommand : List String → List String
  | [] => []
  | program :: args => program :: (globalOptions args ++ collapseHead groupVerb (fromCommand args))

theorem globalOptions_append_fromCommand (args : List String) :
    globalOptions args ++ fromCommand args = args := by
  have hprefix : globalOptions args <+: args := by
    induction args using globalOptions.induct with
    | case1 => exact List.nil_prefix
    | case2 arg h => simp [globalOptions, h]
    | case3 arg h => simp [globalOptions, h]
    | case4 arg next args hdir ih => simpa [globalOptions, hdir] using ih
    | case5 arg next args hdir hopt ih => simpa [globalOptions, hdir, hopt] using ih
    | case6 arg next args hdir hopt => simp [globalOptions, hdir, hopt]
  obtain ⟨tail, htail⟩ := hprefix
  have hdrop : fromCommand args = tail := by
    rw [fromCommand, ← htail, List.drop_left' (by rw [htail])]
  rw [hdrop, htail]

/-! ## 3. The frame -/

/-- No verb of any group is the name of a group. -/
theorem apart_groupVerb : Apart groupVerb := by
  intro group verb h next
  obtain ⟨verbs, hverbs, hverb⟩ : ∃ verbs, kGroups.lookup group = some verbs
      ∧ (verbs.lookup verb).isSome := by
    cases hlookup : kGroups.lookup group with
    | none => simp [groupVerb, hlookup] at h
    | some verbs => exact ⟨verbs, rfl, by simpa [groupVerb, hlookup] using h⟩
  obtain ⟨before, after, hmem, -⟩ := List.lookup_eq_some_iff.mp hverbs
  have hentry : (group, verbs) ∈ kGroups := hmem ▸ by simp
  obtain ⟨entry, hin, hkey⟩ := List.lookup_isSome_iff.mp hverb
  have hno : ∀ g ∈ kGroups, ∀ v ∈ g.2, kGroups.lookup v.1 = none := by decide
  have hgroup := hno _ hentry _ hin
  rw [← eq_of_beq hkey] at hgroup
  simp [groupVerb, hgroup]

/-- A pair of a group and one of its verbs stands behind `pre`. -/
def VerbPairAfter (pre args : List String) : Prop := PairAfter groupVerb pre args

/-- **The rewriting leaves arguments alone** exactly when no group is followed by one of its
verbs anywhere but at the command position. -/
theorem normalizeGroupVerbs_eq_iff (argv : List String) :
    normalizeGroupVerbs argv = normalizeAtCommand argv ↔
      ∀ pre, VerbPairAfter pre argv.tail → pre = globalOptions argv.tail := by
  cases argv with
  | nil =>
    simp only [normalizeGroupVerbs, normalizeAtCommand, List.tail_nil, true_iff]
    rintro pre ⟨a, b, post, hnil, -⟩
    simp at hnil
  | cons program args =>
    have hone : collapse groupVerb (globalOptions args ++ fromCommand args)
        = globalOptions args ++ collapseHead groupVerb (fromCommand args) ↔
        ∀ p, PairAfter groupVerb p (globalOptions args ++ fromCommand args) →
          p = globalOptions args :=
      collapse_eq_append_collapseHead_iff apart_groupVerb
    rw [globalOptions_append_fromCommand] at hone
    rw [normalizeGroupVerbs, normalizeAtCommand, List.cons_inj_right]
    exact hone

/-- An argument pair of a call, `token list`, reaches the call as one argument. -/
theorem call_arguments_collapsed :
    ¬ ∀ argv, normalizeGroupVerbs argv = normalizeAtCommand argv := by
  intro h
  exact absurd (h ["logosctl", "call", "chat", "send", "token", "list"]) (by decide)

example : normalizeGroupVerbs ["logosctl", "--config-dir", "daemon", "stop"]
    = ["logosctl", "--config-dir", "stop"] := by decide

end Logosctl.CommandLine
