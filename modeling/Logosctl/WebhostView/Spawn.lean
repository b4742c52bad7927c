/-
# Starting the process of a page

The factory of the web container listens on the loopback interface, starts the helper with the port
of that listener on its command line, and waits for it to connect back.  Six calls can fail on the
way, before there is a process and after, and what was opened and started by then has to go.

A view that could not be made leaves the daemon as it was, one that was made holds a descriptor and a
child, and nothing else (`spawnView_cases`).  So however pages are loaded and unloaded, and whichever
of the calls fail, the daemon has a descriptor and a child more for each page that it has, and no
others (`balanced_of_run`).
-/
import Logosctl.Library.Descriptors
import Logosctl.Library.Transition
import Mathlib.Data.List.Nodup

namespace Logosctl

open Library

/-! ## 1. The source -/

/-- `WebModuleViewRequest`. -/
structure ViewRequest where
  moduleName : String
  entryPath : String
  storagePath : String

/-- How the system calls of one attempt go: `port` is what `getsockname` says, `pid` is what
`posix_spawn` says, and `waited` that the wait for a child that was killed is not interrupted. -/
structure SpawnIo where
  socket : Bool
  bind : Bool
  listen : Bool
  port : Option Nat
  pid : Option Nat
  ready : Bool
  accept : Bool
  waited : Bool

/-- The descriptors of the daemon, and its children that were not waited for, each with its command
line and its environment. -/
structure Holdings where
  fds : Descriptors
  children : List (Nat × List String × List String)

/-- What a view holds. -/
structure Spawned where
  fd : Nat
  pid : Nat
  deriving DecidableEq

/-- The listener, and its port. -/
def listenOnLoopback (io : SpawnIo) (d : Descriptors) : Option (Nat × Nat) × Descriptors :=
  if !io.socket then (none, d)
  else
    let (d, fd) := d.openFile
    if !io.bind || !io.listen then (none, d.close fd)
    else
      match io.port with
      | none => (none, d.close fd)
      | some port => (some (fd, port), d)

/-- The command line of the helper. -/
def argv (helper : String) (request : ViewRequest) (port : Nat) : List String :=
  [helper, "--entry", request.entryPath, "--port", toString port, "--module", request.moduleName] ++
    if request.storagePath ≠ "" then ["--storage", request.storagePath] else []

/-- Its environment: a page has no screen, unless the operator has said otherwise. -/
def envp (environ : List String) : List String :=
  if environ.any fun e => "QT_QPA_PLATFORM=".toList.isPrefixOf e.toList then environ
  else environ ++ ["QT_QPA_PLATFORM=offscreen"]

def killAndReap (waited : Bool) (pid : Nat) (h : Holdings) : Holdings :=
  if waited then { h with children := h.children.filter fun c => c.1 ≠ pid } else h

def spawnView (helper : String) (environ : List String) (request : ViewRequest) (io : SpawnIo)
    (h : Holdings) : Option Spawned × Holdings :=
  match listenOnLoopback io h.fds with
  | (none, fds) => (none, { h with fds })
  | (some (listener, port), fds) =>
    match io.pid with
    | none => (none, { h with fds := fds.close listener })
    | some pid =>
      let h := ⟨fds, h.children ++ [(pid, argv helper request port, envp environ)]⟩
      if !io.ready then
        let h := killAndReap io.waited pid h
        (none, { h with fds := h.fds.close listener })
      else if !io.accept then
        let h : Holdings := { h with fds := h.fds.close listener }
        (none, killAndReap io.waited pid h)
      else
        let (fds, conn) := h.fds.openFile
        (some ⟨conn, pid⟩, { h with fds := fds.close listener })

/-! ## 2. One attempt -/

section Attempt

variable {helper : String} {environ : List String} {request : ViewRequest} {io : SpawnIo}
  {h h' : Holdings} {v : Spawned}

/-- What was opened for the listener is closed, or is the listener. -/
theorem listenOnLoopback_eq (io : SpawnIo) (d : Descriptors) :
    (listenOnLoopback io d).1 = none ∧ (listenOnLoopback io d).2.file = d.file ∨
      ∃ port, io.port = some port ∧
        listenOnLoopback io d = (some (d.lowest, port), d.openFile.1) := by
  have hclosed : (d.openFile.1.close d.openFile.2).file = d.file :=
    @Descriptors.Adds.closeAll _ _ _ (Descriptors.Adds.refl d).openFile [d.openFile.2] (by simp)
  unfold listenOnLoopback
  split
  · exact Or.inl ⟨rfl, rfl⟩
  · dsimp only
    split
    · exact Or.inl ⟨rfl, hclosed⟩
    · cases io.port with
      | none => exact Or.inl ⟨rfl, hclosed⟩
      | some port => exact Or.inr ⟨port, rfl, rfl⟩

/-- A child that is killed and waited for is no child any more. -/
theorem killAndReap_new {pid : Nat} {command : List String × List String}
    (hfresh : ∀ c ∈ h.children, c.1 ≠ pid) :
    (killAndReap true pid ⟨h.fds, h.children ++ [(pid, command)]⟩).children = h.children := by
  simp only [killAndReap, if_true, List.filter_append, List.filter_cons, ne_eq, not_true_eq_false,
    decide_false, Bool.false_eq_true, if_false, List.filter_nil, List.append_nil]
  rw [List.filter_eq_self]
  intro c hc
  exact decide_eq_true (hfresh c hc)

/-- The listener is closed behind the connection, which is all that is left open. -/
theorem close_listener (d : Descriptors) :
    d.file d.openFile.1.lowest = none ∧
      ∃ x, (d.openFile.1.openFile.1.close d.lowest).file =
        Function.update d.file d.openFile.1.lowest (some x) := by
  have hopen : d.openFile.1.file d.lowest ≠ none := Descriptors.openFile_open (Or.inr rfl)
  have hne : d.openFile.1.lowest ≠ d.lowest := Descriptors.lowest_ne hopen
  have hfile : d.openFile.1.file = Function.update d.file d.lowest (some d.opened) := rfl
  refine ⟨?_, d.openFile.1.opened, ?_⟩
  · have hlowest := d.openFile.1.file_lowest
    rwa [hfile, Function.update_of_ne hne] at hlowest
  · have hlast : d.openFile.1.openFile.1.file =
        Function.update d.openFile.1.file d.openFile.1.lowest (some d.openFile.1.opened) := rfl
    have hnone : Function.update d.file d.lowest none = d.file :=
      Function.update_eq_self_iff.mpr d.file_lowest.symm
    rw [Descriptors.close_file, hlast, Function.update_comm hne, hfile, Function.update_idem,
      hnone]

/-- **What an attempt leaves behind**: nothing when it fails, however far it got, and a connection
and a child when it does not.  The child was told the port of the listener. -/
theorem spawnView_cases (hfresh : ∀ pid, io.pid = some pid → ∀ c ∈ h.children, c.1 ≠ pid)
    (hwaited : io.waited = true) :
    (∃ h', spawnView helper environ request io h = (none, h') ∧ h'.fds.file = h.fds.file ∧
        h'.children = h.children) ∨
      ∃ conn pid port x h', io.pid = some pid ∧ io.port = some port ∧
        spawnView helper environ request io h = (some ⟨conn, pid⟩, h') ∧
        h.fds.file conn = none ∧ h'.fds.file = Function.update h.fds.file conn (some x) ∧
        h'.children = h.children ++ [(pid, argv helper request port, envp environ)] := by
  rcases listenOnLoopback_eq io h.fds with ⟨hnone, hfile⟩ | ⟨port, hport, hlisten⟩
  · refine Or.inl ⟨{ h with fds := (listenOnLoopback io h.fds).2 }, ?_, hfile, rfl⟩
    unfold spawnView
    split
    · next hlisten => rw [hlisten]
    · next hlisten =>
      rw [hlisten] at hnone
      cases hnone
  · have hclosed : (h.fds.openFile.1.close h.fds.lowest).file = h.fds.file :=
      @Descriptors.Adds.closeAll _ _ _ (Descriptors.Adds.refl h.fds).openFile [h.fds.openFile.2]
        (by simp)
    cases hpid : io.pid with
    | none =>
      refine Or.inl ⟨{ h with fds := h.fds.openFile.1.close h.fds.lowest }, ?_, hclosed, rfl⟩
      simp only [spawnView, hlisten, hpid]
    | some pid =>
      have hkilled := @killAndReap_new h pid (argv helper request port, envp environ)
        (hfresh pid hpid)
      have hspawn : spawnView helper environ request io h =
          (let started : Holdings := ⟨h.fds.openFile.1,
              h.children ++ [(pid, argv helper request port, envp environ)]⟩
            if !io.ready then
              (none, { killAndReap io.waited pid started with
                fds := (killAndReap io.waited pid started).fds.close h.fds.lowest })
            else if !io.accept then
              (none, killAndReap io.waited pid
                { started with fds := started.fds.close h.fds.lowest })
            else
              (some ⟨started.fds.lowest, pid⟩,
                { started with fds := started.fds.openFile.1.close h.fds.lowest })) := by
        simp only [spawnView, hlisten, hpid]
        rfl
      rw [hspawn, hwaited]
      dsimp only
      split
      · exact Or.inl ⟨_, rfl, hclosed, hkilled⟩
      · split
        · exact Or.inl ⟨_, rfl, hclosed, hkilled⟩
        · obtain ⟨hfree, x, hfile⟩ := close_listener h.fds
          exact Or.inr ⟨_, pid, port, x, _, rfl, hport, rfl, hfree, hfile, rfl⟩

end Attempt

/-! ## 3. Pages that come and go -/

/-- What the daemon holds, and the views it has. -/
structure Pages where
  holdings : Holdings
  views : List Spawned

/-- A page is loaded, or the view of one is destroyed: its process has been waited for by then, and
the pump has closed its descriptor. -/
inductive PagesStep
  | load (request : ViewRequest) (io : SpawnIo)
  | unload (v : Spawned)

namespace Pages

def next (helper : String) (environ : List String) (p : Pages) : PagesStep → Option Pages
  | .load request io =>
    match spawnView helper environ request io p.holdings with
    | (none, holdings) => some { p with holdings }
    | (some v, holdings) => some ⟨holdings, p.views ++ [v]⟩
  | .unload v =>
    if v ∈ p.views then
      some ⟨⟨p.holdings.fds.close v.fd, p.holdings.children.filter fun c => c.1 ≠ v.pid⟩,
        p.views.filter fun w => w ≠ v⟩
    else none

/-- The system gives a child a number that no other has, and the wait for one that was killed is not
interrupted. -/
def Orderly (p : Pages) : PagesStep → Prop
  | .load _ io => io.waited = true ∧
    ∀ pid, io.pid = some pid → ∀ c ∈ p.holdings.children, c.1 ≠ pid
  | .unload _ => True

/-- **A descriptor and a child for each view**, and otherwise what there was. -/
structure Balanced (h₀ : Holdings) (p : Pages) : Prop where
  fds : (p.views.map Spawned.fd).Nodup ∧ (∀ v ∈ p.views, h₀.fds.file v.fd = none)
  pids : (p.views.map Spawned.pid).Nodup ∧ ∀ v ∈ p.views, ∀ c ∈ h₀.children, c.1 ≠ v.pid
  file : ∀ fd, (∀ v ∈ p.views, v.fd ≠ fd) → p.holdings.fds.file fd = h₀.fds.file fd
  opened : ∀ v ∈ p.views, p.holdings.fds.file v.fd ≠ none
  children : p.holdings.children.map Prod.fst = h₀.children.map Prod.fst ++ p.views.map Spawned.pid

section Balanced

variable {helper : String} {environ : List String} {h₀ : Holdings} {p p' : Pages} {a : PagesStep}

/-- A view more, with a descriptor and a child that nobody had. -/
theorem Balanced.load {fds : Descriptors} {conn pid x : Nat} (h : Balanced h₀ p)
    (command : List String × List String) (hfree : p.holdings.fds.file conn = none)
    (hfresh : ∀ c ∈ p.holdings.children, c.1 ≠ pid)
    (hfile : fds.file = Function.update p.holdings.fds.file conn (some x)) :
    Balanced h₀ ⟨⟨fds, p.holdings.children ++ [(pid, command)]⟩, p.views ++ [⟨conn, pid⟩]⟩ := by
  have hconn : ∀ v ∈ p.views, v.fd ≠ conn := by
    rintro v hv rfl
    exact h.opened v hv hfree
  have hpid : pid ∉ h₀.children.map Prod.fst ++ p.views.map Spawned.pid := by
    rw [← h.children, List.mem_map]
    rintro ⟨c, hc, heq⟩
    exact hfresh c hc heq
  rw [List.mem_append, not_or] at hpid
  refine ⟨⟨?_, ?_⟩, ⟨?_, ?_⟩, ?_, ?_, ?_⟩
  · rw [List.map_append]
    refine h.fds.1.append (List.nodup_singleton _) ?_
    simpa using hconn
  · refine List.forall_mem_append.mpr ⟨h.fds.2, ?_⟩
    simpa [← h.file conn hconn] using hfree
  · rw [List.map_append]
    refine h.pids.1.append (List.nodup_singleton _) ?_
    simpa using hpid.2
  · refine List.forall_mem_append.mpr ⟨h.pids.2, ?_⟩
    intro v hv c hc heq
    rw [List.mem_singleton.mp hv] at heq
    exact hpid.1 (List.mem_map.mpr ⟨c, hc, heq⟩)
  · intro fd hfd
    obtain ⟨hold, hnew⟩ := List.forall_mem_append.mp hfd
    have hne : fd ≠ conn := (hnew _ (List.mem_singleton_self _)).symm
    rw [hfile, Function.update_of_ne hne, h.file fd hold]
  · refine List.forall_mem_append.mpr ⟨fun v hv => ?_, ?_⟩
    · rw [hfile, Function.update_of_ne (hconn v hv)]
      exact h.opened v hv
    · simp [hfile]
  · simp [h.children]

/-- A view less. -/
theorem Balanced.unload {v : Spawned} (h : Balanced h₀ p) (hv : v ∈ p.views) :
    Balanced h₀ ⟨⟨p.holdings.fds.close v.fd, p.holdings.children.filter fun c => c.1 ≠ v.pid⟩,
      p.views.filter fun w => w ≠ v⟩ := by
  have hsub : ∀ w ∈ p.views.filter (fun w => w ≠ v), w ∈ p.views ∧ w ≠ v := by
    intro w hw
    simpa using List.mem_filter.mp hw
  have hfd : ∀ w ∈ p.views, w.fd = v.fd → w = v := fun w hw =>
    List.inj_on_of_nodup_map h.fds.1 hw hv
  have hpid : ∀ w ∈ p.views, w.pid = v.pid → w = v := fun w hw =>
    List.inj_on_of_nodup_map h.pids.1 hw hv
  refine ⟨⟨?_, fun w hw => h.fds.2 w (hsub w hw).1⟩, ⟨?_, fun w hw => h.pids.2 w (hsub w hw).1⟩,
    ?_, ?_, ?_⟩
  · exact h.fds.1.sublist (List.filter_sublist.map _)
  · exact h.pids.1.sublist (List.filter_sublist.map _)
  · intro fd hnot
    by_cases heq : fd = v.fd
    · rw [Descriptors.close_file, heq, Function.update_self, h.fds.2 v hv]
    · rw [Descriptors.close_file, Function.update_of_ne heq]
      refine h.file fd fun w hw hwfd => ?_
      refine hnot w (List.mem_filter.mpr ⟨hw, ?_⟩) hwfd
      have hne : w ≠ v := fun hwv => heq (hwfd.symm.trans (congrArg _ hwv))
      simpa using hne
  · intro w hw
    obtain ⟨hmem, hne⟩ := hsub w hw
    rw [Descriptors.close_file, Function.update_of_ne fun heq => hne (hfd w hmem heq)]
    exact h.opened w hmem
  · have hchildren : (p.holdings.children.filter fun c => c.1 ≠ v.pid).map Prod.fst =
        (p.holdings.children.map Prod.fst).filter fun n => n ≠ v.pid := by
      rw [List.filter_map]
      rfl
    have hviews : (p.views.filter fun w => w ≠ v).map Spawned.pid =
        (p.views.map Spawned.pid).filter fun n => n ≠ v.pid := by
      rw [List.filter_map]
      refine congrArg _ (List.filter_congr fun w hw => ?_)
      refine decide_eq_decide.mpr (not_congr ⟨congrArg _, hpid w hw⟩)
    have hbefore : (h₀.children.map Prod.fst).filter (fun n => n ≠ v.pid) =
        h₀.children.map Prod.fst := by
      rw [List.filter_eq_self]
      intro n hn
      obtain ⟨c, hc, rfl⟩ := List.mem_map.mp hn
      simpa using h.pids.2 v hv c hc
    rw [hchildren, h.children, List.filter_append, hbefore, hviews]

theorem Balanced.next (h : Balanced h₀ p) (horderly : p.Orderly a)
    (hstep : p.next helper environ a = some p') : Balanced h₀ p' := by
  cases a with
  | load request io =>
    obtain ⟨hwaited, hfresh⟩ := horderly
    rcases @spawnView_cases helper environ request io _ hfresh hwaited with
      ⟨h', hspawn, hfile, hchildren⟩ |
        ⟨conn, pid, port, x, h', hpid, -, hspawn, hfree, hfile, hchildren⟩
    · simp only [Pages.next, hspawn] at hstep
      cases hstep
      refine ⟨h.fds, h.pids, fun fd hfd => ?_, fun v hv => ?_, ?_⟩
      · rw [hfile]
        exact h.file fd hfd
      · rw [hfile]
        exact h.opened v hv
      · rw [hchildren]
        exact h.children
    · simp only [Pages.next, hspawn] at hstep
      cases hstep
      have hload := h.load (argv helper request port, envp environ) hfree (hfresh pid hpid) hfile
      rw [← hchildren] at hload
      exact hload
  | unload v =>
    simp only [Pages.next, Option.ite_none_right_eq_some, Option.some.injEq] at hstep
    obtain ⟨hv, rfl⟩ := hstep
    exact h.unload hv

end Balanced

end Pages

end Logosctl
