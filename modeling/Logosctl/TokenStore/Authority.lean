/-
# The two authorities of a running daemon

A daemon accepts a presented token if the token manager has it, or if the store accepts it for the
transport of the call.  At boot it issues itself the `auto` token, local only, and saves the raw
value in the token manager, where neither an operation on the store nor the transport of a call
reaches it.  So what the store promises of its tokens, the daemon keeps for every token but that
one, and for that one exactly while it is presented over the local socket and its name is left
alone (`limits_hold_iff`).
-/
import Logosctl.TokenStore.Semantics

namespace Logosctl.TokenStore

open Logosctl.Library

/-! ## 1. Boot and decision -/

/-- The token that a daemon issues itself at boot. -/
def autoCall (io : Io) : Call := ⟨.issue "auto" "" true true, io⟩

/-- The issue of the boot token, as the history of the store has it. -/
def autoEvent (autoTokenRaw : String) : Event :=
  ⟨.issue "auto" "" true true, .ok (.issued { status := .ok, token := autoTokenRaw })⟩

/-- `Daemon::start`, the part about tokens: the boot token goes into the token manager, or the
daemon does not start. -/
def start (sha256 : String → Vector UInt8 32) (io : Io) (d : Dir) : Option (List String × Dir) :=
  match (issueToken sha256 io "auto" "" true true).exec d with
  | (.ok ⟨.ok, autoTokenRaw⟩, d') => some ([autoTokenRaw], d')
  | _ => none

/-- The decision on a call: a token of the manager, or one that the installed validator accepts. -/
def authorizes (sha256 : String → Vector UInt8 32) (inbound : List String) (file : FileContent)
    (token transportProtocol : String) (now : Int) : Except TypeError Bool :=
  if inbound.contains token then pure true
  else do
    let name ← lookupByToken sha256 file token transportProtocol now
    pure name.isSome

/-! ## 2. What is promised of a token -/

/-- Some issue of the history returned the token as a local-only one. -/
def IssuedLocalOnly (history : List Event) (tok : String) : Prop :=
  ∃ e ∈ history, ∃ n g, e.Issues n g ∧ g.token = tok ∧ g.localOnly = true

/-- After the issue of the token there was another `Ok` operation on its name. -/
def Superseded (history : List Event) (tok : String) : Prop :=
  ∃ pre e mid x post n g, history = pre ++ e :: (mid ++ x :: post) ∧ e.Issues n g ∧
    g.token = tok ∧ x.OkOn n

section Authority

variable {sha256 : String → Vector UInt8 32} {d d' : Dir} {history : List Event}

/-- A start that succeeds is a boot issue that returned `Ok`. -/
theorem perform_of_start {io : Io} {inbound : List String}
    (h : start sha256 io d = some (inbound, d')) : ∃ autoTokenRaw, inbound = [autoTokenRaw] ∧
      ((autoCall io).perform sha256).exec d =
        (.ok (.issued { status := .ok, token := autoTokenRaw }), d') := by
  unfold start at h
  split at h
  · rename_i autoTokenRaw t hissue
    cases h
    refine ⟨autoTokenRaw, rfl, ?_⟩
    rw [autoCall, Call.perform, Prog.exec_bind_pure, hissue]
    rfl
  · cases h

theorem autoEvent_issues (autoTokenRaw : String) :
    (autoEvent autoTokenRaw).Issues "auto" ⟨autoTokenRaw, "", true⟩ :=
  ⟨⟨true, rfl⟩, rfl⟩

theorem authorizes_eq_true_iff {inbound : List String} {file : FileContent} {tok tr : String}
    {now : Int} : authorizes sha256 inbound file tok tr now = .ok true ↔
      tok ∈ inbound ∨ ∃ n, lookupByToken sha256 file tok tr now = .ok (some n) := by
  unfold authorizes
  by_cases hin : tok ∈ inbound
  · rw [if_pos (by simpa using hin)]
    exact iff_of_true rfl (Or.inl hin)
  · rw [if_neg (by simpa using hin), or_iff_right hin, except_bind_eq_ok]
    constructor
    · rintro ⟨name, hlookup, hsome⟩
      obtain ⟨n, rfl⟩ := Option.isSome_iff_exists.mp (Except.ok.inj hsome)
      exact ⟨n, hlookup⟩
    · rintro ⟨n, hlookup⟩
      exact ⟨some n, hlookup, rfl⟩

/-- The store accepts no local-only token over another transport. -/
theorem LastIssued.not_localOnly {n tok tr : String} {now : Int} {g : Grant}
    (hfresh : (issuedTokens history).Nodup) (hlast : LastIssued history n g)
    (htoken : g.token = tok) (hadmits : g.Admits tr now) (htr : tr ≠ "local") :
    ¬IssuedLocalOnly history tok := by
  rintro ⟨e, he, n', g', hissues, htoken', hlocal⟩
  obtain ⟨e', he', hissues'⟩ := hlast.exists_mem
  have heq := event_eq_of_token? hfresh he he' hissues.token?_eq
    (hissues'.token?_eq.trans (by rw [htoken, htoken']))
  subst heq
  obtain ⟨-, rfl⟩ := hissues.unique hissues'
  exact htr (hadmits.2 hlocal)

/-- The store accepts no token whose name had a later operation. -/
theorem LastIssued.not_superseded {n tok : String} {g : Grant}
    (hfresh : (issuedTokens history).Nodup) (hlast : LastIssued history n g)
    (htoken : g.token = tok) : ¬Superseded history tok := by
  rintro ⟨pre, e, mid, x, post, n', g', hsplit, hissues, htoken', hx⟩
  obtain ⟨pre', e', post', hsplit', hissues', hpost⟩ := hlast
  obtain ⟨-, rfl, rfl⟩ := issue_position_unique hfresh hsplit hsplit' hissues.token?_eq
    (hissues'.token?_eq.trans (by rw [htoken, htoken']))
  obtain ⟨rfl, -⟩ := hissues.unique hissues'
  exact hpost x (by simp) hx

end Authority

/-! ## 3. When the daemon keeps the promises -/

section Limits

variable {sha256 : String → Vector UInt8 32} {d₀ d₁ d₂ d₃ : Dir} {io : Io} {pre post : List Call}
  {before after : List Event} {inbound : List String} {tok tr : String} {now : Int}

/-- **The limits of a token hold at the daemon,** for every token but the boot token; and for that
one while the call is local and its name was left alone. -/
theorem limits_hold_iff (hstart : d₀.tokens = .missing)
    (hpre : run sha256 pre d₀ = (before, d₁)) (hboot : start sha256 io d₁ = some (inbound, d₂))
    (hpost : run sha256 post d₂ = (after, d₃))
    (hfresh : (issuedTokens (before ++ inbound.map autoEvent ++ after)).Nodup)
    (hinj : Distinguishes sha256 (before ++ inbound.map autoEvent ++ after) tok) :
    ((IssuedLocalOnly (before ++ inbound.map autoEvent ++ after) tok → tr ≠ "local" →
        authorizes sha256 inbound d₃.tokens tok tr now ≠ .ok true) ∧
      (Superseded (before ++ inbound.map autoEvent ++ after) tok →
        authorizes sha256 inbound d₃.tokens tok tr now ≠ .ok true)) ↔
      ¬(tok ∈ inbound ∧ (tr ≠ "local" ∨ ∃ x ∈ after, x.OkOn "auto")) := by
  obtain ⟨autoTokenRaw, rfl, hperform⟩ := perform_of_start hboot
  have hrun : run sha256 (pre ++ autoCall io :: post) d₀ =
      (before ++ autoEvent autoTokenRaw :: after, d₃) := by
    simp only [run_append, run, hpre, hperform, hpost]
    rfl
  rw [List.map_singleton, List.append_assoc, List.singleton_append] at *
  have hissues := autoEvent_issues autoTokenRaw
  constructor
  · rintro ⟨hlocal, hsuperseded⟩ ⟨hin, hcase⟩
    have haccepted : authorizes sha256 [autoTokenRaw] d₃.tokens tok tr now = .ok true :=
      authorizes_eq_true_iff.mpr (Or.inl hin)
    obtain rfl := List.mem_singleton.mp hin
    rcases hcase with htr | ⟨x, hx, hok⟩
    · exact hlocal ⟨autoEvent tok, by simp, "auto", _, hissues, rfl, rfl⟩ htr haccepted
    · obtain ⟨mid, rest, rfl⟩ := List.append_of_mem hx
      exact hsuperseded ⟨before, _, mid, x, rest, "auto", _, rfl, hissues, rfl, hok⟩ haccepted
  · intro hout
    refine ⟨?_, ?_⟩
    · intro hissued htr haccepted
      rcases authorizes_eq_true_iff.mp haccepted with hin | ⟨n, hlookup⟩
      · exact hout ⟨hin, Or.inl htr⟩
      · obtain ⟨-, g, hlast, htoken, hadmits⟩ :=
          (accepted_iff_of_run hstart hrun hfresh hinj).mp hlookup
        exact hlast.not_localOnly hfresh htoken hadmits htr hissued
    · intro hsuperseded haccepted
      rcases authorizes_eq_true_iff.mp haccepted with hin | ⟨n, hlookup⟩
      · -- the boot token was issued at boot only, so what superseded it came after boot
        obtain ⟨pre', e, mid, x, post', n, g, hsplit, he, htoken, hx⟩ := hsuperseded
        obtain rfl := List.mem_singleton.mp hin
        obtain ⟨-, rfl, rfl⟩ := issue_position_unique hfresh rfl hsplit hissues.token?_eq
          (he.token?_eq.trans (by rw [htoken]))
        obtain ⟨rfl, -⟩ := hissues.unique he
        exact hout ⟨hin, Or.inr ⟨x, by simp, hx⟩⟩
      · obtain ⟨-, g, hlast, htoken, -⟩ :=
          (accepted_iff_of_run hstart hrun hfresh hinj).mp hlookup
        exact hlast.not_superseded hfresh htoken hsuperseded

/-- After boot a token is issued for `bob`, and revoked. -/
def bobRevoked : List Call :=
  [⟨.issue "bob" "" false false, goodIo 255⟩, ⟨.revoke "bob", goodIo 255⟩]

/-- A revoked token of the store is turned away. -/
theorem revoked_token_rejected : ∃ inbound d,
    start sampleSha256 (goodIo 0) emptyDir = some (inbound, d) ∧
    authorizes sampleSha256 inbound (run sampleSha256 bobRevoked d).2.tokens
      onesToken "local" 0 ≠ .ok true := by
  refine ⟨_, _, rfl, ?_⟩
  have hlimits := @limits_hold_iff sampleSha256 emptyDir _ _ _ (goodIo 0) [] bobRevoked _ _ _
    onesToken "local" 0 rfl rfl rfl rfl (by decide +kernel) (by unfold Distinguishes; decide +kernel)
  refine (hlimits.mpr ?_).2 ⟨[_], _, [], _, [], "bob", ⟨_, "", false⟩, rfl, ⟨⟨false, rfl⟩, rfl⟩,
    rfl, Or.inl ⟨rfl, rfl⟩⟩
  rintro ⟨hin, -⟩
  revert hin
  decide +kernel

/-- **The boot token outlives its revocation, and leaves the machine.**  It was issued local only
and its name has been revoked, and the daemon accepts it over TCP. -/
theorem boot_token_unlimited : ∃ inbound d after d',
    start sampleSha256 (goodIo 0) emptyDir = some (inbound, d) ∧
    run sampleSha256 [⟨.revoke "auto", goodIo 0⟩] d = (after, d') ∧
    IssuedLocalOnly (inbound.map autoEvent ++ after) zerosToken ∧
    Superseded (inbound.map autoEvent ++ after) zerosToken ∧
    authorizes sampleSha256 inbound d'.tokens zerosToken "tcp" 0 =
      .ok true :=
  ⟨_, _, _, _, rfl, rfl, ⟨_, List.mem_cons_self, "auto", _, autoEvent_issues _, rfl, rfl⟩,
    ⟨[], _, [], _, [], "auto", _, rfl, autoEvent_issues _, rfl, Or.inl ⟨rfl, rfl⟩⟩, rfl⟩

end Limits

end Logosctl.TokenStore
