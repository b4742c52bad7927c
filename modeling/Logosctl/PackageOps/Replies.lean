/-
# How far the replies take an install

An install or an upgrade asks and is answered, gate by gate and file by file, and each answer
decides whether it goes on.  The functions of this module say how far it gets as functions of the
replies alone: which gates pass (`confirmedNames`, `gatedFiles`), what the download brings
(`downloads`) and which files get installed (`installedPaths`).  The theorems beside them connect
each to the operation itself.
-/
import Logosctl.PackageOps.Steps

namespace Logosctl.PackageOps

open Library

section Replies

variable {env : Env} {op : Op} {w : World} {r : Report} {depChanges name : String}

/-! ## 1. Gates in a row -/

/-- The package names whose gates all pass, in order, when the first gate's first reply is the
`c`-th. -/
def confirmedNames (env : Env) : Nat → List String → List String
  | _, [] => []
  | c, name :: names =>
    if gatePasses env c then name :: confirmedNames env (c + 3) names else []

/-- A gate that does not pass leaves `apply`. -/
theorem passGate_of_not_passes (h : gatePasses env w.calls = false) :
    ∃ e w', (passGate env op r depChanges name).exec w = (.error e, w') := by
  cases hopens : gateOpens env w.calls with
  | true =>
    obtain ⟨e, hrun⟩ := @passGate_of_opens env op r depChanges name w hopens h
    exact ⟨e, _, hrun⟩
  | false =>
    obtain ⟨e, hrun⟩ := @passGate_of_not_opens env op r depChanges name w hopens
    exact ⟨e, _, hrun⟩

/-- The gates of the catalog path go through when all of them pass. -/
theorem passGates_of_passes {names : List String} (h : confirmedNames env w.calls names = names) :
    ∃ w', (passGates env op r depChanges names).exec w = (.ok (), w') ∧
      w'.calls = w.calls + 3 * names.length := by
  induction names generalizing w with
  | nil => exact ⟨w, rfl, rfl⟩
  | cons name names ih =>
    unfold confirmedNames at h
    split at h
    · next hpass =>
      have hrest : confirmedNames env (confirmed env op r depChanges name w).calls names =
          names := by
        rw [calls_confirmed]
        exact List.tail_eq_of_cons_eq h
      obtain ⟨w', hrun, hcalls⟩ := ih hrest
      refine ⟨w', Prog.exec_bind_eq_ok.mpr ⟨_, _, passGate_of_passes hpass, hrun⟩, ?_⟩
      rw [hcalls, calls_confirmed, List.length_cons]
      omega
    · cases h

/-- If one of them does not pass, the run ends there. -/
theorem passGates_of_not_passes {names : List String}
    (h : confirmedNames env w.calls names ≠ names) :
    ∃ e w', (passGates env op r depChanges names).exec w = (.error e, w') := by
  induction names generalizing w with
  | nil => exact absurd rfl h
  | cons name names ih =>
    cases hpass : gatePasses env w.calls with
    | true =>
      have hrest : confirmedNames env (confirmed env op r depChanges name w).calls names ≠
          names := by
        intro heq
        rw [calls_confirmed] at heq
        exact h (by rw [confirmedNames, if_pos hpass, heq])
      obtain ⟨e, w', hrun⟩ := ih hrest
      refine ⟨e, w', Prog.exec_bind_eq_error.mpr (Or.inr ⟨_, _, passGate_of_passes hpass, hrun⟩)⟩
    | false =>
      obtain ⟨e, w', hrun⟩ := @passGate_of_not_passes env op w r depChanges name hpass
      exact ⟨e, w', Prog.exec_bind_eq_error.mpr (Or.inl hrun)⟩

/-! ## 2. One install -/

/-- `installPlugin` answered success: an object without an error. -/
def installSucceeded (answer : Reply) : Bool :=
  match answer.json.valueStr "error" with
  | .ok error => error.isEmpty
  | .error _ => false

def installAct (path : String) : Act := .call kPackageManager "installPlugin" [.str path, .bool false]

/-- A successful install goes on. -/
theorem installPlugin_of_succeeded {path : String}
    (h : installSucceeded (env.reply w.calls) = true) :
    (installPlugin env path).exec w = (.ok none, w.after env (installAct path)) := by
  unfold installSucceeded at h
  cases hread : (env.reply w.calls).json.valueStr "error" with
  | error t => simp [hread] at h
  | ok error =>
    rw [hread] at h
    have hobject := Json.isObject_of_value hread
    refine Prog.exec_bind_eq_ok.mpr ⟨_, _, exec_call _ _ _ _, ?_⟩
    dsimp only
    rw [if_pos hobject, hread]
    refine Prog.exec_bind_eq_ok.mpr ⟨error, _, rfl, ?_⟩
    rw [if_pos h]
    rfl

/-- An unsuccessful one gives a reason, or an exception. -/
theorem installPlugin_of_not_succeeded {path : String}
    (h : installSucceeded (env.reply w.calls) = false) :
    (∃ e, (installPlugin env path).exec w = (.ok (some e), w.after env (installAct path))) ∨
      ∃ e, (installPlugin env path).exec w = (.error e, w.after env (installAct path)) := by
  unfold installSucceeded at h
  cases hobject : (env.reply w.calls).json.isObject with
  | false =>
    refine Or.inl ⟨withReason "package_manager did not respond" (env.reply w.calls).why,
      Prog.exec_bind_eq_ok.mpr ⟨_, _, exec_call _ _ _ _, ?_⟩⟩
    dsimp only
    rw [hobject]
    rfl
  | true =>
    cases hread : (env.reply w.calls).json.valueStr "error" with
    | error t =>
      refine Or.inr ⟨.threw t, Prog.exec_bind_eq_error.mpr (Or.inr ⟨_, _, exec_call _ _ _ _, ?_⟩)⟩
      dsimp only
      rw [if_pos hobject, hread]
      rfl
    | ok error =>
      rw [hread] at h
      refine Or.inl ⟨error, Prog.exec_bind_eq_ok.mpr ⟨_, _, exec_call _ _ _ _, ?_⟩⟩
      dsimp only
      rw [if_pos hobject, hread]
      refine Prog.exec_bind_eq_ok.mpr ⟨error, _, rfl, ?_⟩
      simp only [h, Bool.false_eq_true, if_false]
      rfl

/-! ## 3. The downloads -/

/-- The path a download is to be installed from: empty when nothing was fetched, none when the
download failed or cannot be read. -/
def fetchedPath (d : Json) : Option String :=
  match (if d.contains "error" then d.valueStr "error" else .ok ""), d.valueStr "path" with
  | .ok error, .ok path => if error.isEmpty then some path else none
  | _, _ => none

/-- A download without a path ends the run where it stands. -/
theorem installOne_of_none {d : Json} (h : fetchedPath d = none) :
    ∃ e, (installOne env r d).exec w = (.error e, w) := by
  unfold fetchedPath at h
  cases herror : (if d.contains "error" then d.valueStr "error" else .ok "") with
  | error t => exact ⟨.threw t, Prog.exec_bind_of_error (by rw [herror]; rfl)⟩
  | ok error =>
    have hrun : (installOne env r d).exec w = _ := Prog.exec_bind_of_ok (by rw [herror]; rfl)
    rw [hrun]
    split
    · cases hname : d.valueStr "name" "?" with
      | error t => exact ⟨.threw t, Prog.exec_bind_of_error (by rfl)⟩
      | ok name => exact ⟨failure r "download" (name ++ ": " ++ error), Prog.exec_bind_of_ok rfl⟩
    · next hempty =>
      cases hpath : d.valueStr "path" with
      | error t => exact ⟨.threw t, Prog.exec_bind_of_error rfl⟩
      | ok path =>
        rw [herror, hpath] at h
        simp at hempty
        simp [hempty] at h

/-- The reads before the install, when they go well. -/
theorem reads_of_fetchedPath {d : Json} {path : String} (h : fetchedPath d = some path) :
    ∃ error, (if d.contains "error" then d.valueStr "error" else .ok "") = .ok error ∧
      error.isEmpty = true ∧ d.valueStr "path" = .ok path := by
  unfold fetchedPath at h
  cases herror : (if d.contains "error" then d.valueStr "error" else .ok "") with
  | error t => simp [herror] at h
  | ok error =>
    cases hpath : d.valueStr "path" with
    | error t => simp [herror, hpath] at h
    | ok path' =>
      rw [herror, hpath] at h
      cases hempty : error.isEmpty with
      | false => simp [hempty] at h
      | true =>
        simp only [hempty, if_true, Option.some.injEq] at h
        exact ⟨error, rfl, hempty, by rw [h]⟩

/-- An empty path is passed over. -/
theorem installOne_of_empty {d : Json} {path : String} (h : fetchedPath d = some path)
    (hempty : path.isEmpty = true) : (installOne env r d).exec w = (.ok none, w) := by
  obtain ⟨error, herror, hnone, hpath⟩ := reads_of_fetchedPath h
  refine Prog.exec_bind_eq_ok.mpr ⟨error, w, by rw [herror]; rfl, ?_⟩
  rw [hnone]
  refine Prog.exec_bind_eq_ok.mpr ⟨path, w, by rw [hpath]; rfl, ?_⟩
  rw [if_pos hempty]
  rfl

/-- What is left to do for a path that is to be installed. -/
theorem installOne_of_path {d : Json} {path : String} (h : fetchedPath d = some path)
    (hpath : path.isEmpty = false) :
    (installOne env r d).exec w = (installPlugin env path >>= fun failure =>
      match failure with
      | some e => do
        let n ← read (d.valueStr "name" "?")
        fail r "install" (n ++ ": " ++ e)
      | none => do
        let n ← read (d.valueStr "name")
        return some n : M (Option String)).exec w := by
  obtain ⟨error, herror, hnone, hread⟩ := reads_of_fetchedPath h
  unfold installOne
  rw [herror, Prog.exec_bind_of_ok (p := read (.ok error)) rfl, hnone]
  rw [if_neg (by simp), hread, Prog.exec_bind_of_ok (p := read (.ok path)) rfl]
  exact congrArg (Prog.exec · w) (if_neg (by simp [hpath]))

/-- An install that succeeds is recorded, unless the name cannot be read. -/
theorem installOne_of_succeeded {d : Json} {path : String} (h : fetchedPath d = some path)
    (hpath : path.isEmpty = false) (hok : installSucceeded (env.reply w.calls) = true) :
    (installOne env r d).exec w =
      (match d.valueStr "name" with
        | .ok n => (.ok (some n), w.after env (installAct path))
        | .error t => (.error (.threw t), w.after env (installAct path))) := by
  rw [installOne_of_path h hpath, Prog.exec_bind_of_ok (installPlugin_of_succeeded hok)]
  cases hname : d.valueStr "name" with
  | ok n => rfl
  | error t => rfl

/-- An install that does not succeed ends the run. -/
theorem installOne_of_not_succeeded {d : Json} {path : String} (h : fetchedPath d = some path)
    (hpath : path.isEmpty = false) (hfail : installSucceeded (env.reply w.calls) = false) :
    ∃ e, (installOne env r d).exec w = (.error e, w.after env (installAct path)) := by
  rw [installOne_of_path h hpath]
  rcases @installPlugin_of_not_succeeded env w path hfail with ⟨e, hrun⟩ | ⟨e, hrun⟩
  · rw [Prog.exec_bind_of_ok hrun]
    cases hname : d.valueStr "name" "?" with
    | ok n => exact ⟨failure r "install" (n ++ ": " ++ e), rfl⟩
    | error t => exact ⟨.threw t, rfl⟩
  · exact ⟨e, Prog.exec_bind_of_error hrun⟩

/-- The files that the downloads get installed, when the first install is the `c`-th call: up to
the first that fails, or that cannot be read. -/
def installedPaths (env : Env) : Nat → List Json → List String
  | _, [] => []
  | c, d :: ds =>
    match fetchedPath d with
    | none => []
    | some path =>
      if path.isEmpty then installedPaths env c ds
      else if installSucceeded (env.reply c) then
        match d.valueStr "name" with
        | .ok _ => path :: installedPaths env (c + 1) ds
        | .error _ => [path]
      else []

/-- A failing step of the installs ends them. -/
theorem installDownloaded_of_error {d : Json} {ds : List Json} {e : Exit} {w' : World}
    (h : (installOne env r d).exec w = (.error e, w')) :
    ((installDownloaded env r (d :: ds)).exec w).2 = w' := by
  unfold installDownloaded
  rw [Prog.exec_bind_of_error h]

/-- A step of the installs that goes well leaves the rest to be done. -/
theorem installDownloaded_of_ok {d : Json} {ds : List Json} {one : Option String} {w' : World}
    (h : (installOne env r d).exec w = (.ok one, w')) :
    ((installDownloaded env r (d :: ds)).exec w).2 = ((installDownloaded env r ds).exec w').2 := by
  conv_lhs => unfold installDownloaded
  rw [Prog.exec_bind_of_ok h, Prog.exec_bind]
  cases (installDownloaded env r ds).exec w' with
  | mk res t => cases res <;> rfl

/-- What the download call brings, when asking for the installed packages is the `c`-th call. -/
def downloads (env : Env) (opts : Options) (c : Nat) : List Json :=
  match downloadSkips env opts (env.reply c).json.elems, (env.reply (c + 1)).json with
  | .ok _, .arr ds => ds
  | _, _ => []

/-- The world once the installed packages have been asked for. -/
def asked (env : Env) (w : World) : World :=
  w.after env (.call kPackageManager "getInstalledPackages" [])

/-- The world once the download has been asked for. -/
def downloaded (env : Env) (names : List String) (opts : Options) (skips : String) (w : World) :
    World :=
  (asked env w).after env (.call kPackageDownloader "downloadResolvedDependencies"
    [.str (env.dump (dependenciesJson names opts)), .str skips])

/-- A download that brings files leaves them to be installed. -/
theorem downloadAndInstall_of_array {names : List String} {opts : Options} {skips : String}
    {ds : List Json} (hskips : downloadSkips env opts (env.reply w.calls).json.elems = .ok skips)
    (hds : (env.reply (w.calls + 1)).json = .arr ds) :
    (downloadAndInstall env r names opts).exec w =
      (installDownloaded env r ds).exec (downloaded env names opts skips w) := by
  unfold downloadAndInstall
  rw [Prog.exec_bind_of_ok (exec_installedPackages w), hskips,
    Prog.exec_bind_of_ok (p := read (.ok skips)) rfl, Prog.exec_bind_of_ok (exec_call _ _ _ _),
    World.calls_after_call]
  dsimp only
  rw [hds]
  rfl

/-- A download that brings nothing ends the run, asked for or not. -/
theorem downloadAndInstall_of_no_array {names : List String} {opts : Options}
    (h : ∀ skips ds, downloadSkips env opts (env.reply w.calls).json.elems = .ok skips →
      (env.reply (w.calls + 1)).json ≠ .arr ds) :
    ∃ e w', (downloadAndInstall env r names opts).exec w = (.error e, w') ∧
      (w' = asked env w ∨ ∃ skips, w' = downloaded env names opts skips w) := by
  unfold downloadAndInstall
  rw [Prog.exec_bind_of_ok (exec_installedPackages w)]
  cases hskips : downloadSkips env opts (env.reply w.calls).json.elems with
  | error t =>
    exact ⟨.threw t, _, Prog.exec_bind_of_error (p := read (.error t)) rfl, Or.inl rfl⟩
  | ok skips =>
    rw [Prog.exec_bind_of_ok (p := read (.ok skips)) rfl, Prog.exec_bind_of_ok (exec_call _ _ _ _),
      World.calls_after_call]
    dsimp only
    cases hds : (env.reply (w.calls + 1)).json with
    | arr ds => exact absurd hds (h skips ds hskips)
    | _ => exact ⟨_, _, rfl, Or.inr ⟨skips, rfl⟩⟩

/-- The name under which a downloaded file is reported installed, if there is a file. -/
def handedOver (d : Json) : Option String :=
  match fetchedPath d, d.valueStr "name" with
  | some path, .ok name => if path.isEmpty then none else some name
  | _, _ => none

/-- Installs that all go well report every file handed over. -/
theorem installDownloaded_eq_ok {ds : List Json} {installedNow : List String} {w' : World}
    (h : (installDownloaded env r ds).exec w = (.ok installedNow, w')) :
    installedNow = ds.filterMap handedOver := by
  induction ds generalizing w installedNow with
  | nil =>
    cases h
    rfl
  | cons d ds ih =>
    obtain ⟨one, w₁, hone, h⟩ := Prog.exec_bind_eq_ok.mp h
    obtain ⟨rest, w₂, hrest, h⟩ := Prog.exec_bind_eq_ok.mp h
    cases h
    have hfirst : one = handedOver d := by
      unfold handedOver
      cases hfetched : fetchedPath d with
      | none =>
        obtain ⟨e, he⟩ := @installOne_of_none env w r d hfetched
        rw [he] at hone
        cases hone
      | some path =>
        cases hempty : path.isEmpty with
        | true =>
          rw [installOne_of_empty hfetched hempty] at hone
          cases hone
          cases d.valueStr "name" <;> simp only [hempty, if_true]
        | false =>
          cases hok : installSucceeded (env.reply w.calls) with
          | false =>
            obtain ⟨e, he⟩ := @installOne_of_not_succeeded env w r d path hfetched hempty hok
            rw [he] at hone
            cases hone
          | true =>
            rw [installOne_of_succeeded hfetched hempty hok] at hone
            cases hname : d.valueStr "name" with
            | error t =>
              rw [hname] at hone
              cases hone
            | ok n =>
              rw [hname] at hone
              cases hone
              simp only [hempty, Bool.false_eq_true, if_false]
    rw [ih hrest, hfirst, List.filterMap_cons]
    cases handedOver d <;> rfl

/-! ## 4. The local path -/

/-- The local files whose gates pass, in order, each with whether its install succeeded, when
the first gate's first reply is the `c`-th; up to the first that does not get installed. -/
def gatedFiles (env : Env) : Nat → List Change → List (Change × Bool)
  | _, [] => []
  | c, change :: changes =>
    if gatePasses env c then
      if installSucceeded (env.reply (c + 3)) then
        (change, true) :: gatedFiles env (c + 4) changes
      else [(change, false)]
    else []

/-- One gated file takes four calls. -/
theorem calls_gatedFile {c : Change} :
    ((confirmed env op r depChanges c.name w).after env (installAct c.file)).calls =
      w.calls + 4 := by
  have hthree := @calls_confirmed env op r depChanges c.name w
  rw [installAct, World.calls_after_call, hthree]

/-- A gated file whose install does not succeed ends the local path. -/
theorem installLocal_of_not_succeeded {depChanges : String} {change : Change}
    {changes : List Change} (hpass : gatePasses env w.calls = true)
    (hfail : installSucceeded (env.reply (w.calls + 3)) = false) :
    ((installLocal env op r depChanges (change :: changes)).exec w).2 =
      (confirmed env op r depChanges change.name w).after env (installAct change.file) := by
  rw [← @calls_confirmed env op r depChanges change.name w] at hfail
  unfold installLocal
  rw [Prog.exec_bind_of_ok (passGate_of_passes hpass)]
  rcases @installPlugin_of_not_succeeded env _ change.file hfail with ⟨e, h⟩ | ⟨e, h⟩
  · rw [Prog.exec_bind_of_ok h]
    rfl
  · rw [Prog.exec_bind_of_error h]

/-- A gated file that gets installed leaves the rest to be done. -/
theorem installLocal_of_succeeded {depChanges : String} {change : Change}
    {changes : List Change} (hpass : gatePasses env w.calls = true)
    (hok : installSucceeded (env.reply (w.calls + 3)) = true) :
    ((installLocal env op r depChanges (change :: changes)).exec w).2 =
      ((installLocal env op r depChanges changes).exec
        ((confirmed env op r depChanges change.name w).after env (installAct change.file))).2 := by
  rw [← @calls_confirmed env op r depChanges change.name w] at hok
  conv_lhs => unfold installLocal
  rw [Prog.exec_bind_of_ok (passGate_of_passes hpass),
    Prog.exec_bind_of_ok (installPlugin_of_succeeded hok), Prog.exec_bind]
  cases (installLocal env op r depChanges changes).exec
      ((confirmed env op r depChanges change.name w).after env (installAct change.file)) with
  | mk res t => cases res <;> rfl

end Replies

/-! ## 5. What got installed, read off the log -/

/-- The file an event installs. -/
def installsFile : Event → Option String
  | .call module method (.str path :: _) answer =>
    if module = kPackageManager ∧ method = "installPlugin" ∧ installSucceeded answer then some path
    else none
  | _ => none

/-- The files installed between two worlds, in order. -/
def fileInstalls (w w' : World) : List String := (eventsSince w w').filterMap installsFile

section FileInstalls

variable {env : Env} {w w₁ w' : World} {F : Footprint} {op : Op} {r : Report}

theorem fileInstalls_self : fileInstalls w w = [] := by
  simp [fileInstalls, eventsSince]

theorem fileInstalls_trans {C D : World → Act → Prop} (h₁ : Performs env C w w₁)
    (h₂ : Performs env D w₁ w') : fileInstalls w w' = fileInstalls w w₁ ++ fileInstalls w₁ w' := by
  unfold fileInstalls
  rw [h₁.eventsSince_trans h₂, List.filterMap_append]

theorem fileInstalls_installAct {path : String} :
    fileInstalls w (w.after env (installAct path)) =
      if installSucceeded (env.reply w.calls) then [path] else [] := by
  have hevents : eventsSince w (w.after env (installAct path)) = [w.event env (installAct path)] :=
    eventsSince_eq rfl
  unfold fileInstalls
  rw [hevents]
  cases h : installSucceeded (env.reply w.calls) <;>
    simp [World.event, installAct, installsFile, h]

/-- What never calls `installPlugin` installs nothing. -/
theorem fileInstalls_of_footprint (hm : "installPlugin" ∉ F.methods)
    (h : Performs env F.Allows w w') : fileInstalls w w' = [] := by
  refine List.filterMap_eq_nil_iff.mpr ?_
  intro e he
  obtain ⟨s, a, -, ha, -, rfl⟩ := h.mem_eventsSince he
  cases a with
  | call module method args =>
    have hne : method ≠ "installPlugin" := fun h => hm (h ▸ ha)
    unfold World.event installsFile
    split
    · next heq =>
      cases heq
      rw [if_neg (fun h => hne h.2.1)]
    · rfl
  | unload name b => rfl
  | load name => rfl
  | refresh => rfl
  | warn line => rfl

/-- **What the downloads get installed.** -/
theorem fileInstalls_installDownloaded {ds : List Json} :
    fileInstalls w ((installDownloaded env r ds).exec w).2 = installedPaths env w.calls ds := by
  induction ds generalizing w with
  | nil => exact fileInstalls_self
  | cons d ds ih =>
    cases hfetched : fetchedPath d with
    | none =>
      obtain ⟨e, hrun⟩ := @installOne_of_none env w r d hfetched
      rw [installDownloaded_of_error hrun, fileInstalls_self]
      simp only [installedPaths, hfetched]
    | some path =>
      cases hempty : path.isEmpty with
      | true =>
        rw [installDownloaded_of_ok (installOne_of_empty hfetched hempty), ih]
        simp only [installedPaths, hfetched, hempty, if_true]
      | false =>
        have hact := @fileInstalls_installAct env w path
        cases hok : installSucceeded (env.reply w.calls) with
        | false =>
          obtain ⟨e, hrun⟩ := @installOne_of_not_succeeded env w r d path hfetched hempty hok
          rw [installDownloaded_of_error hrun, hact]
          simp only [installedPaths, hfetched, hempty, hok, Bool.false_eq_true, if_false]
        | true =>
          have hrun := @installOne_of_succeeded env w r d path hfetched hempty hok
          rw [hok, if_pos rfl] at hact
          cases hname : d.valueStr "name" with
          | error t =>
            rw [hname] at hrun
            rw [installDownloaded_of_error hrun, hact]
            simp only [installedPaths, hfetched, hempty, hok, hname, Bool.false_eq_true, if_false,
              if_true]
          | ok name =>
            rw [hname] at hrun
            have hfirst : Performs env downloadFootprint.Allows w
                (w.after env (installAct path)) := .single (by decide : _ ∈ _)
            have hrest := (@does_installDownloaded env r ds (w.after env (installAct path))).1
            have hcalls : (w.after env (installAct path)).calls = w.calls + 1 := rfl
            rw [installDownloaded_of_ok hrun, fileInstalls_trans hfirst hrest, ih, hact, hcalls]
            simp only [installedPaths, hfetched, hempty, hok, hname, Bool.false_eq_true, if_false,
              if_true, List.singleton_append]

/-- The footprint of asking for the downloads. -/
def askFootprint : Footprint := ⟨["getInstalledPackages", "downloadResolvedDependencies"], [], []⟩

theorem performs_asked : Performs env askFootprint.Allows w (asked env w) :=
  .single (by simp [Footprint.Allows, askFootprint])

theorem performs_downloaded {names : List String} {opts : Options} {skips : String} :
    Performs env askFootprint.Allows w (downloaded env names opts skips w) :=
  performs_asked.act (by simp [Footprint.Allows, askFootprint])

/-- **What the catalog path gets installed**, after its gates. -/
theorem fileInstalls_downloadAndInstall {names : List String} {opts : Options} :
    fileInstalls w ((downloadAndInstall env r names opts).exec w).2 =
      installedPaths env (w.calls + 2) (downloads env opts w.calls) := by
  have hask : ∀ w', Performs env askFootprint.Allows w w' → fileInstalls w w' = [] := fun w' =>
    fileInstalls_of_footprint (by simp [askFootprint])
  by_cases h : ∃ skips ds, downloadSkips env opts (env.reply w.calls).json.elems = .ok skips ∧
      (env.reply (w.calls + 1)).json = .arr ds
  · obtain ⟨skips, ds, hskips, hds⟩ := h
    have hrest := (@does_installDownloaded env r ds (downloaded env names opts skips w)).1
    rw [downloadAndInstall_of_array hskips hds,
      fileInstalls_trans performs_downloaded hrest, hask _ performs_downloaded,
      fileInstalls_installDownloaded, downloads, hskips, hds]
    rfl
  · obtain ⟨e, w', hrun, hw'⟩ := @downloadAndInstall_of_no_array env w r names opts
      fun skips ds hskips hds => h ⟨skips, ds, hskips, hds⟩
    have hnothing : downloads env opts w.calls = [] := by
      unfold downloads
      split
      · next hskips hds => exact absurd ⟨_, _, hskips, hds⟩ h
      · rfl
    rw [hrun, hnothing]
    rcases hw' with rfl | ⟨skips, rfl⟩
    · exact hask _ performs_asked
    · exact hask _ performs_downloaded

end FileInstalls

end Logosctl.PackageOps
