/-
# Publishing tokens.json

`TokensFile::write` writes the whole document to a temp file beside `tokens.json` and renames it
into place.  The temp has one name for all writers, and nothing locks it: what a rename publishes is
whatever the other writers have made of the file by then.  Here any number of writers take their
steps in any order, every system call may fail and any process may die.

The published file is always one writer's complete document in every run in which no writer opens
the temp while another is between its own open and its rename (`Exclusive`).  The invariant says of
each writer what it may rely on at the place where it stands (`Secured`), and that at most one
of them is in flight.  A writer that opens the temp of another empties the file that the other is
about to publish (`emptied_under_the_rename`).
-/
import Logosctl.Library.Inodes
import Logosctl.Library.Paths
import Logosctl.Library.Transition
import Logosctl.TokenStore

namespace Logosctl.TokenStore

open Logosctl.Library

/-! ## 1. The steps of one writer -/

/-- `TokensFile::filePath`, under the daemon's directory. -/
def TokensFile.filePath (daemonDir : String) : String := daemonDir ++ "/tokens.json"

/-- The temp file beside it. -/
def TokensFile.tmpPath (daemonDir : String) : String := filePath daemonDir ++ ".tmp"

theorem TokensFile.resolve_filePath (daemonDir : String) :
    resolve (filePath daemonDir) = resolve daemonDir ++ ["tokens.json"] := by
  have h := resolve_entry daemonDir "tokens.json" (by decide)
  rwa [String.append_assoc] at h

theorem TokensFile.resolve_tmpPath (daemonDir : String) :
    resolve (tmpPath daemonDir) = resolve daemonDir ++ ["tokens.json.tmp"] := by
  have h := resolve_entry daemonDir "tokens.json.tmp" (by decide)
  rw [String.append_assoc] at h
  rwa [tmpPath, filePath, String.append_assoc]

/-- A place that is published by renaming another onto it. -/
structure Target (ν : Type) where
  path : ν
  tmp : ν
  ne : tmp ≠ path

/-- `tokens.json` and its temp, of one name for all writers. -/
def TokensFile.target (daemonDir : String) : Target Place where
  path := resolve (filePath daemonDir)
  tmp := resolve (tmpPath daemonDir)
  ne := by
    rw [resolve_filePath, resolve_tmpPath]
    simp

/-- The mode `S_IRUSR | S_IWUSR`. -/
def ownerOnly : Nat := 0o600

/-- The mode of a file that a stream creates. -/
def createdMode (umask : Nat) : Nat := 0o666 - (0o666 &&& umask)

/-- Where a call of `TokensFile::write` stands. -/
inductive WritePc
  | start
  | prepared
  | opened (fd written : Nat)
  | failed (fd offset : Nat)
  | closed
  | restricted
  | renameFailed
  | returned (ok : Bool)
  | dead
  deriving DecidableEq

/-- A system call of `TokensFile::write` and how it went, or the end of the process.  A write that
fails leaves anything behind. -/
inductive WriteAction (β : Type)
  | createDirectories (ok : Bool)
  | openTmp (ok : Bool)
  | writeChunk (n : Nat)
  | writeFails (left : List β)
  | close (ok : Bool)
  | chmod (ok : Bool)
  | rename (ok : Bool)
  | removeTmp (ok : Bool)
  | die
  deriving DecidableEq

/-- One step of `TokensFile::write` with the text `doc`, whatever the unit is that text is made of:
where the call stands next, and what became of the files.  A stream that failed is still closed
before the failure is reported; the result of the chmod is not looked at. -/
def TokensFile.writeStep {ν β : Type} [DecidableEq ν] [Inhabited β] (t : Target ν) (umask : Nat)
    (doc : List β) (f : Files ν β) : WritePc → WriteAction β → Option (WritePc × Files ν β)
  | .dead, _ => none
  | _, .die => some (.dead, f)
  | .start, .createDirectories ok => some (if ok then .prepared else .returned false, f)
  | .prepared, .openTmp ok =>
    if ok then
      let (f, fd) := f.openTrunc (createdMode umask) t.tmp
      some (.opened fd 0, f)
    else some (.returned false, f)
  | .opened fd written, .writeChunk n =>
    let chunk := (doc.drop written).take n
    some (.opened fd (written + chunk.length), f.write fd written chunk)
  | .opened fd written, .writeFails left =>
    some (.failed fd (written + left.length), f.write fd written left)
  | .failed fd offset, .writeFails left =>
    some (.failed fd (offset + left.length), f.write fd offset left)
  | .failed _ _, .close _ => some (.returned false, f)
  | .opened _ written, .close ok =>
    if !ok then some (.returned false, f)
    else if written = doc.length then some (.closed, f)
    else none
  | .closed, .chmod ok => some (.restricted, if ok then f.chmod ownerOnly t.tmp else f)
  | .restricted, .rename ok =>
    match ok, f.rename t.tmp t.path with
    | true, some f => some (.returned true, f)
    | _, _ => some (.renameFailed, f)
  | .renameFailed, .removeTmp ok =>
    some (.returned false, if ok then f.unlink t.tmp else f)
  | _, _ => none

/-- Between the open of the temp and its rename. -/
def WritePc.InFlight : WritePc → Prop
  | .opened _ _ => True
  | .failed _ _ => True
  | .closed => True
  | .restricted => True
  | _ => False

/-! ## 2. Any number of writers -/

/-- The files, where every call stands, and what each call put under the published name. -/
structure Writers where
  files : Files Place UInt8
  pc : Nat → WritePc
  published : Nat → Option (List UInt8)

/-- A call of `TokensFile::write`: its argument, and the umask of its process. -/
structure WriteCall where
  tokens : List TokenEntry
  umask : Nat

section Writers

variable (dump : Json → List UInt8) (t : Target Place) (call : Nat → WriteCall)

/-- `obj.dump(4) << "\n"`: the complete document of a call. -/
def WriteCall.text (c : WriteCall) : List UInt8 := dump (TokensFile.toJson c.tokens) ++ [10]

/-- One step of any call.  A call publishes when another file comes to stand under the name. -/
def Writers.next (s : Writers) (a : Nat × WriteAction UInt8) : Option Writers :=
  let c := call a.1
  (TokensFile.writeStep t c.umask (c.text dump) s.files (s.pc a.1) a.2).map fun (pc, files) =>
    { files
      pc := Function.update s.pc a.1 pc
      published :=
        if files.inode t.path = s.files.inode t.path then s.published
        else Function.update s.published a.1 (files.read t.path) }

/-- Every call is still to come. -/
def Writers.Fresh (s : Writers) : Prop := (∀ k, s.pc k = .start) ∧ ∀ k, s.published k = none

/-- A writer opens the temp only while no other is between its own open and its rename. -/
def Exclusive (s : Writers) (a : Nat × WriteAction UInt8) : Prop :=
  a.2 = .openTmp true → ∀ j, j ≠ a.1 → ¬(s.pc j).InFlight

/-- **What readers of `tokens.json` are promised:** the file is the one of the beginning or the
complete document of a call that published it, a call that returned true published its document,
and one that returned false published nothing. -/
structure Writers.Complete (s₀ s : Writers) : Prop where
  whole : s.files.read t.path = s₀.files.read t.path ∨
    ∃ k, s.published k = some ((call k).text dump) ∧
      s.files.read t.path = some ((call k).text dump)
  returned_true : ∀ k, s.pc k = .returned true → s.published k = some ((call k).text dump)
  returned_false : ∀ k, s.pc k = .returned false → s.published k = none

end Writers

/-! ## 3. What one step does -/

section Step

variable {ν β : Type} [DecidableEq ν] {t : Target ν} {umask : Nat} {doc : List β} {f f' : Files ν β}
  {pc pc' : WritePc} {a : WriteAction β}

/-- The descriptor's inode is not the published one, and the temp's name stands for no other. -/
def Holds (t : Target ν) (f : Files ν β) (fd : Nat) : Prop :=
  f.inode t.path ≠ some fd ∧ ∀ i, f.inode t.tmp = some i → i = fd

/-- What a call may rely on where it stands: while it writes, the temp is its own and holds what it
has written; once closed, whatever stands under the temp's name is its document. -/
def Secured (t : Target ν) (doc : List β) (f : Files ν β) : WritePc → Prop
  | .opened fd written =>
    Holds t f fd ∧ written ≤ doc.length ∧ (f.node fd).data = doc.take written
  | .failed fd _ => Holds t f fd
  | .closed => ∀ i, f.inode t.tmp = some i → (f.node i).data = doc
  | .restricted => ∀ i, f.inode t.tmp = some i → (f.node i).data = doc
  | _ => True

omit [DecidableEq ν] in
theorem secured_of_not_inFlight (h : ¬pc.InFlight) : Secured t doc f pc := by
  cases pc with
  | opened fd written => exact absurd trivial h
  | failed fd offset => exact absurd trivial h
  | closed => exact absurd trivial h
  | restricted => exact absurd trivial h
  | _ => trivial

/-- A temp that someone removes is published by no one. -/
theorem Secured.unlink (h : Secured t doc f pc) :
    Secured t doc (f.unlink t.tmp) pc := by
  have hpath : (f.unlink t.tmp).inode t.path = f.inode t.path :=
    Files.unlink_inode_of_ne (t.ne).symm
  have hgone : ∀ i, (f.unlink t.tmp).inode t.tmp ≠ some i := by simp
  cases pc with
  | opened fd written => exact ⟨⟨hpath ▸ h.1.1, fun i hi => absurd hi (hgone i)⟩, h.2⟩
  | failed fd offset => exact ⟨hpath ▸ h.1, fun i hi => absurd hi (hgone i)⟩
  | closed => exact fun i hi => absurd hi (hgone i)
  | restricted => exact fun i hi => absurd hi (hgone i)
  | _ => trivial

/-- The kinds of step.  A step that is none of the others leaves the files alone and the writer out
of flight, without success. -/
inductive Wrote [Inhabited β] (t : Target ν) (umask : Nat) (doc : List β) (f : Files ν β) :
    WritePc → WriteAction β → WritePc → Files ν β → Prop
  | idle {pc pc' : WritePc} {a : WriteAction β} : ¬pc'.InFlight → pc' ≠ .returned true →
      (pc' ≠ .dead → pc ≠ .returned true ∧ pc ≠ .dead) → Wrote t umask doc f pc a pc' f
  | opened : Wrote t umask doc f .prepared (.openTmp true)
      (.opened (f.openTrunc (createdMode umask) t.tmp).2 0)
      (f.openTrunc (createdMode umask) t.tmp).1
  | chunk (fd written n : Nat) : Wrote t umask doc f (.opened fd written) (.writeChunk n)
      (.opened fd (written + ((doc.drop written).take n).length))
      (f.write fd written ((doc.drop written).take n))
  | fault {pc : WritePc} (fd offset : Nat) (left : List β) :
      pc = .opened fd offset ∨ pc = .failed fd offset →
      Wrote t umask doc f pc (.writeFails left) (.failed fd (offset + left.length))
        (f.write fd offset left)
  | closed (fd : Nat) : Wrote t umask doc f (.opened fd doc.length) (.close true) .closed f
  | restricted (ok : Bool) : Wrote t umask doc f .closed (.chmod ok) .restricted
      (if ok then f.chmod ownerOnly t.tmp else f)
  | renamed {f' : Files ν β} : f.rename t.tmp t.path = some f' →
      Wrote t umask doc f .restricted (.rename true) (.returned true) f'
  | cleaned : Wrote t umask doc f .renameFailed (.removeTmp true) (.returned false)
      (f.unlink t.tmp)

section Wrote

variable [Inhabited β]

/-- Every step is of one of the kinds. -/
theorem wrote_of_writeStep (h : TokensFile.writeStep t umask doc f pc a = some (pc', f')) :
    Wrote t umask doc f pc a pc' f' := by
  unfold TokensFile.writeStep at h
  split at h
  · cases h
  · rename_i hdead
    cases h
    exact .idle (by simp [WritePc.InFlight]) (by simp) (by simp)
  · rename_i ok
    cases h
    cases ok <;> exact .idle (by simp [WritePc.InFlight]) (by simp) (by simp)
  · rename_i ok
    cases ok
    · cases h
      exact .idle (by simp [WritePc.InFlight]) (by simp) (by simp)
    · cases h
      exact .opened
  · cases h
    exact .chunk ..
  · cases h
    exact .fault _ _ _ (Or.inl rfl)
  · cases h
    exact .fault _ _ _ (Or.inr rfl)
  · cases h
    exact .idle (by simp [WritePc.InFlight]) (by simp) (by simp)
  · rename_i fd written ok
    cases ok
    · cases h
      exact .idle (by simp [WritePc.InFlight]) (by simp) (by simp)
    · simp only [Bool.not_true, Bool.false_eq_true, if_false] at h
      split at h
      · rename_i hall
        cases h
        subst hall
        exact .closed fd
      · cases h
  · cases h
    exact .restricted _
  · split at h
    · rename_i hrename
      cases h
      exact .renamed hrename
    · cases h
      exact .idle (by simp [WritePc.InFlight]) (by simp) (by simp)
  · rename_i ok
    cases h
    cases ok
    · exact .idle (by simp [WritePc.InFlight]) (by simp) (by simp)
    · exact .cleaned
  · cases h

/-- **A writer keeps what it relies on** by its own steps. -/
theorem Wrote.secured (h : Wrote t umask doc f pc a pc' f') (hs : Secured t doc f pc) :
    Secured t doc f' pc' := by
  cases h with
  | idle hidle _ _ => exact secured_of_not_inFlight hidle
  | opened =>
    obtain ⟨hself, hdata⟩ := f.openTrunc_self (createdMode umask) t.tmp
    refine ⟨⟨?_, ?_⟩, Nat.zero_le _, by rw [hdata, List.take_zero]⟩
    · intro hi
      exact t.ne (Files.apart _ _ _ _ hself hi)
    · intro i hi
      exact Option.some.inj (hi.symm.trans hself)
  | chunk fd written n =>
    obtain ⟨hholds, hle, hdata⟩ := hs
    refine ⟨hholds, ?_, ?_⟩
    · rw [List.length_take, List.length_drop]
      omega
    · have hlen : written = (f.node fd).data.length := by
        rw [hdata, List.length_take]
        omega
      rw [Files.write, Files.setNode_node_self]
      have happend := Files.overwrite_length (f.node fd).data ((doc.drop written).take n)
      rw [← hlen] at happend
      rw [happend, hdata, List.take_add]
      exact congrArg _ (List.prefix_iff_eq_take.mp (List.take_prefix n _))
  | fault fd offset left hpc =>
    rcases hpc with rfl | rfl
    · exact hs.1
    · exact hs
  | closed fd =>
    obtain ⟨hholds, -, hdata⟩ := hs
    intro i hi
    rw [hholds.2 i hi, hdata, List.take_length]
  | restricted ok =>
    cases ok with
    | false => exact hs
    | true =>
      intro i hi
      rw [if_pos rfl, Files.chmod_inode] at hi
      rw [if_pos rfl, Files.chmod_data]
      exact hs i hi
  | renamed _ => trivial
  | cleaned => trivial

/-- What a step does to the published name: nothing, or the writer's document is there and the call
returns true. -/
theorem Wrote.published (h : Wrote t umask doc f pc a pc' f') (hs : Secured t doc f pc) :
    (f'.inode t.path = f.inode t.path ∧ f'.read t.path = f.read t.path ∧ pc' ≠ .returned true ∧
        (pc' ≠ .dead → pc ≠ .returned true ∧ pc ≠ .dead)) ∨
      (f'.inode t.path ≠ f.inode t.path ∧ f'.read t.path = some doc ∧ pc' = .returned true) := by
  have hne : t.path ≠ t.tmp := t.ne.symm
  cases h with
  | idle _ htrue hfrom => exact Or.inl ⟨rfl, rfl, htrue, hfrom⟩
  | opened =>
    refine Or.inl ⟨Files.openTrunc_inode_of_ne hne, ?_, by simp, by simp⟩
    rw [Files.read, Files.openTrunc_find_of_ne hne, Files.read]
  | chunk fd written n =>
    refine Or.inl ⟨rfl, ?_, by simp, by simp⟩
    rw [Files.read, Files.write_find_of_ne hs.1.1, Files.read]
  | fault fd offset left hpc =>
    have hholds : Holds t f fd := by
      rcases hpc with rfl | rfl
      · exact hs.1
      · exact hs
    refine Or.inl ⟨rfl, ?_, by simp, ?_⟩
    · rw [Files.read, Files.write_find_of_ne hholds.1, Files.read]
    · rcases hpc with rfl | rfl <;> simp
  | closed fd => exact Or.inl ⟨rfl, rfl, by simp, by simp⟩
  | restricted ok => cases ok <;> exact Or.inl ⟨by simp, by simp, by simp, by simp⟩
  | renamed hrename =>
    obtain ⟨i, hi, rfl⟩ := Files.rename_eq_some_iff.mp hrename
    refine Or.inr ⟨?_, ?_, rfl⟩
    · rw [Files.move_inode_dest hi]
      intro hpath
      exact hne (f.apart _ _ _ hpath.symm hi)
    · rw [Files.read, Files.find_eq (Files.move_inode_dest hi)]
      exact congrArg some (hs i hi)
  | cleaned =>
    refine Or.inl ⟨Files.unlink_inode_of_ne hne, ?_, by simp, by simp⟩
    rw [Files.read, Files.unlink_find_of_ne hne, Files.read]

/-- A writer out of flight that does not open the temp stays out, and at most removes the temp. -/
theorem Wrote.of_not_inFlight (h : Wrote t umask doc f pc a pc' f') (hpc : ¬pc.InFlight)
    (ha : a ≠ .openTmp true) : ¬pc'.InFlight ∧ (f' = f ∨ f' = f.unlink t.tmp) := by
  cases h with
  | idle hidle _ _ => exact ⟨hidle, Or.inl rfl⟩
  | opened => exact absurd rfl ha
  | chunk fd written n => exact absurd trivial hpc
  | fault fd offset left hfrom => rcases hfrom with rfl | rfl <;> exact absurd trivial hpc
  | closed fd => exact absurd trivial hpc
  | restricted ok => exact absurd trivial hpc
  | renamed _ => exact absurd trivial hpc
  | cleaned => exact ⟨id, Or.inr rfl⟩

end Wrote

end Step

/-! ## 4. Every run of exclusive writers -/

section Runs

variable {dump : Json → List UInt8} {t : Target Place} {call : Nat → WriteCall} {s₀ s s' : Writers}

/-- What holds throughout: at most one writer is in flight, each has what it relies on, and the
published name holds what the promise says. -/
structure Writers.Inv (dump : Json → List UInt8) (t : Target Place) (call : Nat → WriteCall)
    (s₀ s : Writers) : Prop where
  single : ∀ j k, (s.pc j).InFlight → (s.pc k).InFlight → j = k
  secured : ∀ k, Secured t ((call k).text dump) s.files (s.pc k)
  whole : s.files.read t.path = s₀.files.read t.path ∨
    ∃ k, s.published k = some ((call k).text dump) ∧
      s.files.read t.path = some ((call k).text dump)
  returned_true : ∀ k, s.pc k = .returned true → s.published k = some ((call k).text dump)
  unpublished : ∀ k, s.pc k ≠ .returned true → s.pc k ≠ .dead → s.published k = none

theorem Writers.Fresh.inv (h : s₀.Fresh) : Writers.Inv dump t call s₀ s₀ := by
  have hidle : ∀ k, ¬(s₀.pc k).InFlight := by
    intro k
    rw [h.1 k]
    exact id
  refine ⟨?_, fun k => secured_of_not_inFlight (hidle k), Or.inl rfl, ?_, fun k _ _ => h.2 k⟩
  · intro j k hj
    exact absurd hj (hidle j)
  · intro k hk
    rw [h.1 k] at hk
    cases hk

/-- A step of the system is a step of one writer; the others stand where they stood. -/
theorem Writers.next_cases {k : Nat} {a : WriteAction UInt8}
    (h : s.next dump t call (k, a) = some s') :
    Wrote t (call k).umask ((call k).text dump) s.files (s.pc k) a (s'.pc k) s'.files ∧
      (∀ j, j ≠ k → s'.pc j = s.pc j) ∧
      s'.published = if s'.files.inode t.path = s.files.inode t.path then s.published
        else Function.update s.published k (s'.files.read t.path) := by
  simp only [Writers.next, Option.map_eq_some_iff, Prod.exists] at h
  obtain ⟨pc, files, hstep, rfl⟩ := h
  have hself : Function.update s.pc k pc k = pc := Function.update_self ..
  refine ⟨?_, fun j hj => Function.update_of_ne hj .., rfl⟩
  simp only [hself]
  exact wrote_of_writeStep hstep

/-- While a writer takes a step no other in flight is disturbed. -/
theorem Wrote.others {k : Nat} {a : WriteAction UInt8} {pc : WritePc} {files : Files Place UInt8}
    (hstep : Wrote t (call k).umask ((call k).text dump) s.files (s.pc k) a pc files)
    (hi : Writers.Inv dump t call s₀ s) (hx : Exclusive s (k, a)) {j : Nat} (hjk : j ≠ k) :
    Secured t ((call j).text dump) files (s.pc j) ∧ (pc.InFlight → ¬(s.pc j).InFlight) := by
  by_cases hj : (s.pc j).InFlight
  · -- the one in flight is `j`, so the step is one of a writer that is not, and no open
    have hk : ¬(s.pc k).InFlight := fun hk => hjk (hi.single j k hj hk)
    have hopen : a ≠ .openTmp true := fun ha => hx ha j hjk hj
    obtain ⟨hpc, rfl | rfl⟩ := hstep.of_not_inFlight hk hopen
    · exact ⟨hi.secured j, fun h => absurd h hpc⟩
    · exact ⟨(hi.secured j).unlink, fun h => absurd h hpc⟩
  · exact ⟨secured_of_not_inFlight hj, fun _ => hj⟩

/-- Every writer still has what it relies on. -/
theorem Writers.Inv.secured_next (hi : Writers.Inv dump t call s₀ s) {k : Nat}
    {a : WriteAction UInt8} (hx : Exclusive s (k, a))
    (h : s.next dump t call (k, a) = some s') (j : Nat) :
    Secured t ((call j).text dump) s'.files (s'.pc j) := by
  obtain ⟨hstep, hother, -⟩ := Writers.next_cases h
  by_cases hj : j = k
  · subst hj
    exact hstep.secured (hi.secured j)
  · rw [hother j hj]
    exact (hstep.others hi hx hj).1

/-- There is still one writer in flight at most. -/
theorem Writers.Inv.single_next (hi : Writers.Inv dump t call s₀ s) {k : Nat}
    {a : WriteAction UInt8} (hx : Exclusive s (k, a))
    (h : s.next dump t call (k, a) = some s') (i j : Nat) (h₁ : (s'.pc i).InFlight)
    (h₂ : (s'.pc j).InFlight) : i = j := by
  obtain ⟨hstep, hother, -⟩ := Writers.next_cases h
  by_cases hik : i = k <;> by_cases hjk : j = k
  · rw [hik, hjk]
  · subst hik
    rw [hother j hjk] at h₂
    exact absurd h₂ ((hstep.others hi hx hjk).2 h₁)
  · subst hjk
    rw [hother i hik] at h₁
    exact absurd h₁ ((hstep.others hi hx hik).2 h₂)
  · rw [hother i hik] at h₁
    rw [hother j hjk] at h₂
    exact hi.single i j h₁ h₂

/-- **One step of any writer keeps the invariant**, if it opens no temp of another. -/
theorem Writers.Inv.step (hi : Writers.Inv dump t call s₀ s) {a : Nat × WriteAction UInt8}
    (hx : Exclusive s a) (h : s.next dump t call a = some s') :
    Writers.Inv dump t call s₀ s' := by
  obtain ⟨k, a⟩ := a
  obtain ⟨hstep, hother, hpublished⟩ := Writers.next_cases h
  have hsecured := hi.secured_next hx h
  have hsingle := hi.single_next hx h
  rcases hstep.published (hi.secured k) with
    ⟨hinode, hread, htrue, hfrom⟩ | ⟨hinode, hread, htrue⟩
  · -- nothing is published
    rw [if_pos hinode] at hpublished
    refine ⟨hsingle, hsecured, by rw [hread, hpublished]; exact hi.whole, ?_, ?_⟩
    · intro j hj
      have hjk : j ≠ k := by
        rintro rfl
        exact htrue hj
      rw [hother j hjk] at hj
      rw [hpublished]
      exact hi.returned_true j hj
    · intro j hj hdead
      rw [hpublished]
      by_cases hjk : j = k
      · subst hjk
        obtain ⟨h₁, h₂⟩ := hfrom hdead
        exact hi.unpublished j h₁ h₂
      · rw [hother j hjk] at hj hdead
        exact hi.unpublished j hj hdead
  · -- the document of the call is
    rw [if_neg hinode] at hpublished
    have hself : s'.published k = some ((call k).text dump) := by
      rw [hpublished, Function.update_self, hread]
    have hold : ∀ j, j ≠ k → s'.published j = s.published j := by
      intro j hj
      rw [hpublished, Function.update_of_ne hj]
    refine ⟨hsingle, hsecured, Or.inr ⟨k, hself, hread⟩, ?_, ?_⟩
    · intro j hj
      by_cases hjk : j = k
      · rw [hjk]
        exact hself
      · rw [hother j hjk] at hj
        rw [hold j hjk]
        exact hi.returned_true j hj
    · intro j hj hdead
      have hjk : j ≠ k := by
        rintro rfl
        exact hj htrue
      rw [hother j hjk] at hj hdead
      rw [hold j hjk]
      exact hi.unpublished j hj hdead

/-- **`tokens.json` is always a complete document**, in every run in which no writer opens the temp
while another is between its own open and its rename; and each call published its document or
nothing, as it returned. -/
theorem complete_of_exclusive (h₀ : s₀.Fresh)
    (h : Reaches (fun s a s' => s.next dump t call a = some s') Exclusive s₀ s) :
    Writers.Complete dump t call s₀ s := by
  have hi : Writers.Inv dump t call s₀ s :=
    h.invariant h₀.inv fun hi hx hnext => hi.step hx hnext
  refine ⟨hi.whole, hi.returned_true, ?_⟩
  intro k hk
  exact hi.unpublished k (by rw [hk]; simp) (by rw [hk]; simp)

end Runs

/-! ## 5. A writer that is left alone -/

section Solo

variable {dump : Json → List UInt8} {t : Target Place} {call : Nat → WriteCall} {s : Writers}

/-- One writer's steps, with the files to itself. -/
def soloStep {ν β : Type} [DecidableEq ν] [Inhabited β] (t : Target ν) (umask : Nat) (doc : List β)
    (u : WritePc × Files ν β) (a : WriteAction β) : Option (WritePc × Files ν β) :=
  TokensFile.writeStep t umask doc u.2 u.1 a

/-- What a writer does alone it does among others that are not in flight. -/
theorem reaches_of_solo {k : Nat} {as : List (WriteAction UInt8)} {pc' : WritePc}
    {files' : Files Place UInt8} (hquiet : ∀ j, j ≠ k → ¬(s.pc j).InFlight)
    (h : runActions (soloStep t (call k).umask ((call k).text dump)) (s.pc k, s.files) as =
      some (pc', files')) :
    ∃ s', Reaches (fun s a s' => s.next dump t call a = some s') Exclusive s s' ∧
      s'.pc k = pc' ∧ s'.files = files' ∧ ∀ j, j ≠ k → s'.pc j = s.pc j := by
  induction as generalizing s with
  | nil =>
    simp only [runActions, Option.some.injEq, Prod.mk.injEq] at h
    exact ⟨s, .refl, h.1, h.2, fun _ _ => rfl⟩
  | cons a as ih =>
    simp only [runActions, Option.bind_eq_some_iff, Prod.exists] at h
    obtain ⟨pc, files, hstep, hrest⟩ := h
    have hnext : ∃ u, s.next dump t call (k, a) = some u ∧ u.pc k = pc ∧ u.files = files ∧
        ∀ j, j ≠ k → u.pc j = s.pc j := by
      unfold soloStep at hstep
      simp only [Writers.next, hstep, Option.map_some]
      exact ⟨_, rfl, Function.update_self .., rfl, fun j hj => Function.update_of_ne hj ..⟩
    obtain ⟨u, hu, rfl, rfl, hother⟩ := hnext
    obtain ⟨s', hreach, hpc, hfiles, hothers⟩ := ih
      (fun j hj => by rw [hother j hj]; exact hquiet j hj) hrest
    have hexclusive : Exclusive s (k, a) := fun _ j hj => hquiet j hj
    refine ⟨s', (Reaches.refl.tail hexclusive hu).trans hreach, hpc, hfiles, ?_⟩
    intro j hj
    rw [hothers j hj, hother j hj]

/-- The system calls of a writer for which all goes well. -/
def goodWrite (length : Nat) : List (WriteAction UInt8) :=
  [.createDirectories true, .openTmp true, .writeChunk length, .close true, .chmod true,
    .rename true]

variable (dump t call) in
/-- **A writer that is left alone publishes**: it has a run that returns true. -/
theorem publishes_alone {k : Nat} (hquiet : ∀ j, j ≠ k → ¬(s.pc j).InFlight)
    (hk : s.pc k = .start) :
    ∃ s', Reaches (fun s a s' => s.next dump t call a = some s') Exclusive s s' ∧
      s'.pc k = .returned true ∧ ∀ j, j ≠ k → s'.pc j = s.pc j := by
  have hrun : ∃ files', runActions (soloStep t (call k).umask ((call k).text dump))
      (s.pc k, s.files) (goodWrite ((call k).text dump).length) =
        some (.returned true, files') := by
    obtain ⟨files', hrename⟩ := s.files.exists_rename_written t.tmp t.path
      (createdMode (call k).umask) ownerOnly ((call k).text dump)
    refine ⟨files', ?_⟩
    simp only [hk, goodWrite, runActions, soloStep, TokensFile.writeStep, Option.bind_some,
      if_true, Bool.not_true, Bool.false_eq_true, if_false, List.drop_zero, List.take_length,
      Nat.zero_add, hrename]
  obtain ⟨files', hrun⟩ := hrun
  obtain ⟨s', hreach, hpc, -, hothers⟩ := reaches_of_solo hquiet hrun
  exact ⟨s', hreach, hpc, hothers⟩

end Solo

/-! ## 6. Two writers -/

section Samples

/-- ASCII text as bytes. -/
def ascii (s : String) : List UInt8 := s.toList.map fun c => UInt8.ofNat c.toNat

/-- The entry of the first token issued, for `alice`. -/
def aliceEntry : TokenEntry :=
  ⟨"alice", "0f007385b6f9d4b7eeb2748605afe1a984a0a3bfa3f014d09e2a784ce9e5cd1a",
    "2026-01-01T00:00:00Z", "", false⟩

/-- `dump(4)` on the two documents below: of no entry, and of that of `alice`. -/
def sampleDump : Json → List UInt8
  | .obj [("tokens", .arr []), _] =>
    ascii "\x7b\n    \"tokens\": [],\n    \"version\": 2\n\x7d"
  | _ => ascii ("\x7b\n    \"tokens\": [\n        \x7b\n            \"expires_at\": null,\n" ++
      "            \"hash\": " ++
      "\"0f007385b6f9d4b7eeb2748605afe1a984a0a3bfa3f014d09e2a784ce9e5cd1a\",\n" ++
      "            \"issued_at\": \"2026-01-01T00:00:00Z\",\n" ++
      "            \"local_only\": false,\n            \"name\": \"alice\"\n        \x7d\n" ++
      "    ],\n    \"version\": 2\n\x7d")

def sampleTarget : Target Place := TokensFile.target "/home/op/.logoscore/daemon"

/-- The first call writes an empty list, the others the entry of `alice`. -/
def sampleCalls (k : Nat) : WriteCall := ⟨if k = 0 then [] else [aliceEntry], 0o022⟩

/-- No file, and every call still to come. -/
def noWriteYet : Writers := ⟨Files.empty, fun _ => .start, fun _ => none⟩

/-- Two writers, one after the other. -/
theorem two_writers_complete :
    ∃ s, s.pc 0 = .returned true ∧ s.pc 1 = .returned true ∧
      Writers.Complete sampleDump sampleTarget sampleCalls noWriteYet s := by
  obtain ⟨s, hs, h0, hother⟩ := publishes_alone sampleDump sampleTarget sampleCalls
    (s := noWriteYet) (k := 0) (fun _ _ => id) rfl
  have hquiet : ∀ j, j ≠ 1 → ¬(s.pc j).InFlight := by
    intro j _
    by_cases hj : j = 0
    · rw [hj, h0]
      exact id
    · rw [hother j hj]
      exact id
  obtain ⟨u, hu, h1, hother'⟩ := publishes_alone sampleDump sampleTarget sampleCalls hquiet
    (hother 1 (by decide))
  exact ⟨u, (hother' 0 (by decide)).trans h0, h1,
    complete_of_exclusive ⟨fun _ => rfl, fun _ => rfl⟩ (hs.trans hu)⟩

/-- One writer has written and closed the temp; another opens it; the first renames. -/
def emptyingRun : List (Nat × WriteAction UInt8) :=
  [(0, .createDirectories true), (0, .openTmp true), (0, .writeChunk 64), (0, .close true),
    (1, .createDirectories true), (1, .openTmp true), (0, .chmod true), (0, .rename true)]

/-- **An empty `tokens.json` is published**, by a call that returns true. -/
theorem emptied_under_the_rename :
    ∃ s, Reaches (fun s a s' => s.next sampleDump sampleTarget sampleCalls a = some s')
        (fun _ _ => True) noWriteYet s ∧
      s.pc 0 = .returned true ∧ s.files.read sampleTarget.path = some [] ∧
      ¬Writers.Complete sampleDump sampleTarget sampleCalls noWriteYet s := by
  have hrun : ((runActions (Writers.next sampleDump sampleTarget sampleCalls) noWriteYet
      emptyingRun).map fun s => (s.pc 0, s.files.read sampleTarget.path)) =
        some (.returned true, some []) := by
    decide +kernel
  obtain ⟨s, hs, hend⟩ := Option.map_eq_some_iff.mp hrun
  obtain ⟨hpc, hread⟩ := Prod.mk.inj hend
  refine ⟨s, runActions_reaches emptyingRun .refl hs, hpc, hread, ?_⟩
  intro hcomplete
  rcases hcomplete.whole with hinitial | ⟨k, -, hk⟩
  · rw [hread] at hinitial
    cases hinitial
  · rw [hread] at hk
    simp [WriteCall.text] at hk

end Samples

end Logosctl.TokenStore
