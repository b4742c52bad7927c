/-
# What a failed write leaves behind

Two functions replace a file by writing another beside it and renaming: `TokensFile::write` for the
list of tokens, and `atomicWriteText` for everything else that a daemon writes.  Each has several
ways to fail.  Where the change of mode or the rename fails, the other file is removed again; where
the stream fails, it stays, with whatever had been written to it by then.

`tracelessly_iff` says for every schedule of faults whether a failed write leaves the directory as
it was.
-/
import Logosctl.TokenStore.Publishing

namespace Logosctl.AtomicWrite

open Library TokenStore

/-! ## 1. The steps -/

/-- The name of the temp file, which is the writer's own. -/
def tmpPath (path : String) (pid tmpSeq : Nat) : String :=
  path ++ ".tmp." ++ toString pid ++ "." ++ toString tmpSeq

/-- One step of `atomicWriteText`: the steps of `TokensFile::write` with another mode, but that what
the change of mode answers is looked at. -/
def atomicWriteText {ν β : Type} [DecidableEq ν] [Inhabited β] (t : Target ν) (umask mode : Nat)
    (doc : List β) (f : Files ν β) : WritePc → WriteAction β → Option (WritePc × Files ν β)
  | .closed, .chmod ok =>
    some (if ok then (.restricted, f.chmod mode t.tmp) else (.renameFailed, f))
  | pc, a => TokensFile.writeStep t umask doc f pc a

/-- The two functions; the mode is an argument of one of them. -/
inductive Writer
  | tokensFile
  | atomicWriteText (mode : Nat)
  deriving DecidableEq

def Writer.mode : Writer → Nat
  | tokensFile => ownerOnly
  | atomicWriteText mode => mode

/-- One step of a writer that has the directory to itself. -/
def Writer.next {ν β : Type} [DecidableEq ν] [Inhabited β] (w : Writer) (t : Target ν)
    (umask : Nat) (doc : List β) (s : WritePc × Files ν β) (a : WriteAction β) :
    Option (WritePc × Files ν β) :=
  match w with
  | tokensFile => TokensFile.writeStep t umask doc s.2 s.1 a
  | atomicWriteText mode => AtomicWrite.atomicWriteText t umask mode doc s.2 s.1 a

theorem slash_notMem_toDigits (n : Nat) : '/' ∉ Nat.toDigits 10 n := fun h =>
  absurd (Nat.isDigit_of_mem_toDigits (by decide) (by decide) h) (by decide)

/-- A path and its temp. -/
def target (path : String) (pid tmpSeq : Nat) : Target Place where
  path := resolve path
  tmp := resolve (tmpPath path pid tmpSeq)
  ne := by
    unfold tmpPath
    rw [String.append_assoc, String.append_assoc, String.append_assoc]
    refine resolve_append_ne ?_ ?_ path
    · simp [slash_notMem_toDigits]
    · simp only [String.toList_append, List.length_append]
      have hlong : ".tmp.".toList.length = 5 := by decide
      omega

/-! ## 2. What a schedule does -/

section Schedule

variable {ν β : Type} (doc : List β) (as : List (WriteAction β))

/-- One system call, onto what the stream has written so far. -/
def streamed (written : List β) : WriteAction β → List β
  | .writeChunk n => written ++ (doc.drop written.length).take n
  | .writeFails left => written ++ left
  | _ => written

/-- What the stream writes, by a schedule. -/
def leftBy : List β := as.foldl (streamed doc) []

/-- The temp is opened. -/
def Opens : Prop := .openTmp true ∈ as

/-- No write fails and neither does the close. -/
def Flushes : Prop := .close true ∈ as ∧ ∀ left, .writeFails left ∉ as

/-- **The schedules that leave no trace** where they fail: the temp is never opened; or its stream
is good to the end and there was no file of its name; or its stream fails, and what it leaves is
what there was. -/
def LeavesNoTrace (t : Target ν) (f : Files ν β) : Prop :=
  ¬ Opens as ∨ Flushes as ∧ f.find t.tmp = none ∨
    ¬ Flushes as ∧ ∃ mode, f.find t.tmp = some ⟨mode, leftBy doc as⟩

end Schedule

/-! ## 3. One step -/

section Step

variable {ν β : Type} [DecidableEq ν] [Inhabited β] {w : Writer} {t : Target ν} {umask : Nat}
  {doc : List β} {f f' f₀ : Files ν β} {pc pc' : WritePc} {a : WriteAction β}
  {as : List (WriteAction β)}

/-- **The steps there are.**  After a change of mode that fails one writer goes on and the other
cleans up. -/
inductive Stepped (w : Writer) (t : Target ν) (umask : Nat) (doc : List β) (f : Files ν β) :
    WritePc → WriteAction β → WritePc → Files ν β → Prop
  | died (pc : WritePc) : Stepped w t umask doc f pc .die .dead f
  | prepared : Stepped w t umask doc f .start (.createDirectories true) .prepared f
  | unprepared : Stepped w t umask doc f .start (.createDirectories false) (.returned false) f
  | opened : Stepped w t umask doc f .prepared (.openTmp true)
      (.opened (f.openTrunc (createdMode umask) t.tmp).2 0)
      (f.openTrunc (createdMode umask) t.tmp).1
  | unopened : Stepped w t umask doc f .prepared (.openTmp false) (.returned false) f
  | chunk (fd written n : Nat) : Stepped w t umask doc f (.opened fd written) (.writeChunk n)
      (.opened fd (written + ((doc.drop written).take n).length))
      (f.write fd written ((doc.drop written).take n))
  | fault {pc : WritePc} (fd offset : Nat) (left : List β) :
      pc = .opened fd offset ∨ pc = .failed fd offset →
      Stepped w t umask doc f pc (.writeFails left) (.failed fd (offset + left.length))
        (f.write fd offset left)
  | unflushed (fd written : Nat) :
      Stepped w t umask doc f (.opened fd written) (.close false) (.returned false) f
  | failed (fd offset : Nat) (ok : Bool) :
      Stepped w t umask doc f (.failed fd offset) (.close ok) (.returned false) f
  | closed (fd : Nat) : Stepped w t umask doc f (.opened fd doc.length) (.close true) .closed f
  | restricted : Stepped w t umask doc f .closed (.chmod true) .restricted (f.chmod w.mode t.tmp)
  | unrestricted : w = .tokensFile → Stepped w t umask doc f .closed (.chmod false) .restricted f
  | refused : w ≠ .tokensFile → Stepped w t umask doc f .closed (.chmod false) .renameFailed f
  | renamed {f' : Files ν β} : f.rename t.tmp t.path = some f' →
      Stepped w t umask doc f .restricted (.rename true) (.returned true) f'
  | unrenamed (ok : Bool) : Stepped w t umask doc f .restricted (.rename ok) .renameFailed f
  | removed : Stepped w t umask doc f .renameFailed (.removeTmp true) (.returned false)
      (f.unlink t.tmp)
  | unremoved : Stepped w t umask doc f .renameFailed (.removeTmp false) (.returned false) f

/-- The steps that the two writers share. -/
theorem stepped_of_writeStep (hshared : pc = .closed → ∀ ok, a = .chmod ok → w = .tokensFile)
    (h : TokensFile.writeStep t umask doc f pc a = some (pc', f')) :
    Stepped w t umask doc f pc a pc' f' := by
  unfold TokensFile.writeStep at h
  split at h
  · cases h
  · cases h
    exact .died _
  · rename_i ok
    cases ok <;> cases h
    · exact .unprepared
    · exact .prepared
  · rename_i ok
    cases ok <;> cases h
    · exact .unopened
    · exact .opened
  · cases h
    exact .chunk ..
  · cases h
    exact .fault _ _ _ (Or.inl rfl)
  · cases h
    exact .fault _ _ _ (Or.inr rfl)
  · cases h
    exact .failed ..
  · rename_i fd written ok
    cases ok
    · cases h
      exact .unflushed ..
    · simp only [Bool.not_true, Bool.false_eq_true, if_false] at h
      split at h
      · rename_i hall
        cases h
        subst hall
        exact .closed fd
      · cases h
  · rename_i ok
    have hw := hshared rfl ok rfl
    subst hw
    cases ok <;> cases h
    · exact .unrestricted rfl
    · exact .restricted
  · split at h
    · rename_i hrename
      cases h
      exact .renamed hrename
    · cases h
      exact .unrenamed _
  · rename_i ok
    cases ok <;> cases h
    · exact .unremoved
    · exact .removed
  · cases h

/-- Every step is one of them. -/
theorem stepped_of_next (h : w.next t umask doc (pc, f) a = some (pc', f')) :
    Stepped w t umask doc f pc a pc' f' := by
  cases w with
  | tokensFile => exact stepped_of_writeStep (fun _ _ _ => rfl) h
  | atomicWriteText mode =>
    simp only [Writer.next, atomicWriteText] at h
    split at h
    · rename_i ok
      cases ok <;> cases h
      · exact .refused nofun
      · exact .restricted
    · rename_i hother
      refine stepped_of_writeStep (fun hpc ok ha => ?_) h
      exact absurd ha (hother ok hpc)

end Step

/-! ## 4. Runs -/

section Run

variable {ν β : Type} [DecidableEq ν] [Inhabited β] {w : Writer} {t : Target ν} {umask : Nat}
  {doc : List β} {f f' f₀ : Files ν β} {pc pc' : WritePc} {a : WriteAction β}
  {as : List (WriteAction β)}

/-- Everything but the temp is as before. -/
def Beside (t : Target ν) (f₀ f : Files ν β) : Prop := ∀ n, n ≠ t.tmp → f.find n = f₀.find n

section Beside

variable {fd offset mode : Nat} {chunk : List β}

omit [DecidableEq ν] in
theorem Beside.write (h : Beside t f₀ f) (htmp : f.inode t.tmp = some fd) :
    Beside t f₀ (f.write fd offset chunk) := fun n hn =>
  (Files.write_find_of_ne fun hi => hn (f.apart _ _ _ hi htmp)).trans (h n hn)

omit [DecidableEq ν] [Inhabited β] in
theorem Beside.chmod (h : Beside t f₀ f) : Beside t f₀ (f.chmod mode t.tmp) := fun n hn =>
  (Files.chmod_find_of_ne hn).trans (h n hn)

omit [Inhabited β] in
theorem Beside.unlink (h : Beside t f₀ f) : Beside t f₀ (f.unlink t.tmp) := fun n hn =>
  (Files.unlink_find_of_ne hn).trans (h n hn)

omit [Inhabited β] in
theorem beside_openTrunc (t : Target ν) (f : Files ν β) (mode : Nat) :
    Beside t f (f.openTrunc mode t.tmp).1 := fun _ hn => Files.openTrunc_find_of_ne hn

end Beside

/-- The temp has been opened, and holds what the stream has written. -/
structure Writing (t : Target ν) (umask : Nat) (doc : List β) (f₀ : Files ν β)
    (as : List (WriteAction β)) (fd offset : Nat) (f : Files ν β) : Prop where
  beside : Beside t f₀ f
  inode : f.inode t.tmp = some fd
  node : f.node fd = ⟨f₀.modeAt (createdMode umask) t.tmp, leftBy doc as⟩
  offset : offset = (leftBy doc as).length
  opens : Opens as

/-- Nothing has been opened, and nothing written. -/
structure Untouched (doc : List β) (f₀ : Files ν β) (as : List (WriteAction β)) (f : Files ν β) :
    Prop where
  files : f = f₀
  opens : ¬ Opens as
  left : leftBy doc as = []
  smooth : ∀ left, .writeFails left ∉ as
  unclosed : .close true ∉ as

/-- **Where a run stands**: what has become of the files at each place, and by what schedule. -/
def Stands (t : Target ν) (umask : Nat) (doc : List β) (f₀ : Files ν β)
    (as : List (WriteAction β)) : WritePc → Files ν β → Prop
  | .start, f | .prepared, f => Untouched doc f₀ as f
  | .opened fd written, f => Writing t umask doc f₀ as fd written f ∧
      (∀ left, .writeFails left ∉ as) ∧ .close true ∉ as
  | .failed fd offset, f => Writing t umask doc f₀ as fd offset f ∧ ∃ left, .writeFails left ∈ as
  | .closed, f | .restricted, f | .renameFailed, f => Beside t f₀ f ∧ Opens as ∧ Flushes as
  | .returned false, f =>
      (f = f₀ ∧ ¬ Opens as) ∨
        Beside t f₀ f ∧ Opens as ∧
          (Flushes as ∧ (f.find t.tmp = none ∨ .removeTmp false ∈ as) ∨
            ¬ Flushes as ∧
              f.find t.tmp = some ⟨f₀.modeAt (createdMode umask) t.tmp, leftBy doc as⟩)
  | .returned true, _ => True
  | .dead, _ => True

omit [DecidableEq ν] [Inhabited β] in
/-- A temp that is written to holds what was written. -/
theorem Writing.find {fd offset : Nat} (h : Writing t umask doc f₀ as fd offset f) :
    f.find t.tmp = some ⟨f₀.modeAt (createdMode umask) t.tmp, leftBy doc as⟩ := by
  rw [Files.find_eq h.inode, h.node]

omit [DecidableEq ν] [Inhabited β] in
theorem leftBy_append (doc : List β) (as : List (WriteAction β)) (a : WriteAction β) :
    leftBy doc (as ++ [a]) = streamed doc (leftBy doc as) a := List.foldl_append ..

omit [DecidableEq ν] in
/-- Writing on. -/
theorem Writing.write {fd offset : Nat} (h : Writing t umask doc f₀ as fd offset f)
    {chunk : List β} (ha : streamed doc (leftBy doc as) a = leftBy doc as ++ chunk) :
    Writing t umask doc f₀ (as ++ [a]) fd (offset + chunk.length) (f.write fd offset chunk) where
  beside := h.beside.write h.inode
  inode := h.inode
  node := by rw [Files.write_node_end h.node h.offset, leftBy_append, ha]
  offset := by rw [leftBy_append, ha, List.length_append, h.offset]
  opens := List.mem_append_left _ h.opens

omit [DecidableEq ν] [Inhabited β] in
/-- A step that is no write leaves what was written. -/
theorem Writing.find_append {fd offset : Nat} (h : Writing t umask doc f₀ as fd offset f)
    (ha : ∀ written, streamed doc written a = written) :
    f.find t.tmp = some ⟨f₀.modeAt (createdMode umask) t.tmp, leftBy doc (as ++ [a])⟩ := by
  rw [leftBy_append, ha, h.find]

omit [Inhabited β] in
theorem notMem_concat {b : WriteAction β} (h : b ∉ as) (ha : a ≠ b) : b ∉ as ++ [a] := by
  rw [List.mem_append, List.mem_singleton, not_or]
  exact ⟨h, ha.symm⟩

omit [Inhabited β] in
theorem Flushes.append (h : Flushes as) (ha : ∀ left, a ≠ .writeFails left) :
    Flushes (as ++ [a]) :=
  ⟨List.mem_append_left _ h.1, fun left => notMem_concat (h.2 left) (ha left)⟩

omit [DecidableEq ν] [Inhabited β] in
/-- A step that is none of those leaves it so. -/
theorem Untouched.append (h : Untouched doc f₀ as f) (hopen : a ≠ .openTmp true)
    (hfault : ∀ left, a ≠ .writeFails left) (hleft : streamed doc [] a = [])
    (hclose : a ≠ .close true) : Untouched doc f₀ (as ++ [a]) f where
  files := h.files
  opens := notMem_concat h.opens hopen
  left := by rw [leftBy_append, h.left, hleft]
  smooth left := notMem_concat (h.smooth left) (hfault left)
  unclosed := notMem_concat h.unclosed hclose

omit [Inhabited β] in
theorem not_flushes_of_fault {left : List β} (h : .writeFails left ∈ as) : ¬ Flushes as :=
  fun hflushes => hflushes.2 left h

/-- **Each step leaves the run where it may stand.** -/
theorem Stepped.stands (h : Stepped w t umask doc f pc a pc' f')
    (hs : Stands t umask doc f₀ as pc f) : Stands t umask doc f₀ (as ++ [a]) pc' f' := by
  have hstays : ∀ a : WriteAction β, Opens as → Opens (as ++ [a]) :=
    fun a => List.mem_append_left _
  cases h with
  | died => trivial
  | prepared => exact hs.append (by simp) (by simp) rfl (by simp)
  | unprepared =>
    have hstill := hs.append (a := .createDirectories false) (by simp) (by simp) rfl
      (by simp)
    exact Or.inl ⟨hs.files, hstill.opens⟩
  | opened =>
    obtain ⟨rfl, -, hleft, hsmooth, hunclosed⟩ := hs
    obtain ⟨hself, hdata⟩ := f.openTrunc_self (createdMode umask) t.tmp
    have hmode := f.openTrunc_mode (createdMode umask) t.tmp
    have hnone : leftBy doc (as ++ [.openTmp true]) = [] := (leftBy_append ..).trans hleft
    refine ⟨⟨beside_openTrunc t f _, hself, ?_, by rw [hnone]; rfl,
      List.mem_append_right _ (List.mem_singleton_self _)⟩, by simpa using hsmooth,
      by simpa using hunclosed⟩
    rw [hnone, ← hmode, ← hdata]
  | unopened =>
    have hstill := hs.append (a := .openTmp false) (by simp) (by simp) rfl (by simp)
    exact Or.inl ⟨hs.files, hstill.opens⟩
  | chunk fd written n =>
    obtain ⟨hwriting, hsmooth, hclose⟩ := hs
    refine ⟨hwriting.write (by rw [streamed, ← hwriting.offset]), ?_, ?_⟩
    · simpa using hsmooth
    · simpa using hclose
  | fault fd offset left hpc =>
    have hwriting : Writing t umask doc f₀ as fd offset f := by
      rcases hpc with rfl | rfl
      · exact hs.1
      · exact hs.1
    exact ⟨hwriting.write rfl, left, List.mem_append_right _ (List.mem_singleton_self _)⟩
  | unflushed fd written =>
    obtain ⟨hwriting, -, hclose⟩ := hs
    refine Or.inr ⟨hwriting.beside, hstays _ hwriting.opens, Or.inr ⟨?_, ?_⟩⟩
    · rintro ⟨hclosed, -⟩
      simp [hclose] at hclosed
    · exact hwriting.find_append fun _ => rfl
  | failed fd offset ok =>
    obtain ⟨hwriting, left, hfault⟩ := hs
    refine Or.inr ⟨hwriting.beside, hstays _ hwriting.opens, Or.inr ⟨?_, ?_⟩⟩
    · exact not_flushes_of_fault (List.mem_append_left _ hfault)
    · exact hwriting.find_append fun _ => rfl
  | closed fd =>
    obtain ⟨hwriting, hsmooth, -⟩ := hs
    refine ⟨hwriting.beside, hstays _ hwriting.opens, by simp, ?_⟩
    simpa using hsmooth
  | restricted =>
    obtain ⟨hbeside, hopen, hflushes⟩ := hs
    exact ⟨hbeside.chmod, hstays _ hopen, hflushes.append (by simp)⟩
  | unrestricted => exact ⟨hs.1, hstays _ hs.2.1, hs.2.2.append (by simp)⟩
  | refused => exact ⟨hs.1, hstays _ hs.2.1, hs.2.2.append (by simp)⟩
  | renamed => trivial
  | unrenamed => exact ⟨hs.1, hstays _ hs.2.1, hs.2.2.append (by simp)⟩
  | removed =>
    obtain ⟨hbeside, hopen, hflushes⟩ := hs
    refine Or.inr ⟨hbeside.unlink, hstays _ hopen,
      Or.inl ⟨hflushes.append (by simp), Or.inl ?_⟩⟩
    rw [Files.find, Files.unlink_inode_self, Option.map_none]
  | unremoved =>
    refine Or.inr ⟨hs.1, hstays _ hs.2.1, Or.inl ⟨hs.2.2.append (by simp), Or.inr ?_⟩⟩
    exact List.mem_append_right _ (List.mem_singleton_self _)

theorem stands_of_run (h : runActions (w.next t umask doc) (.start, f₀) as = some (pc, f)) :
    Stands t umask doc f₀ as pc f := by
  refine runActions_invariant (I := fun as (s : WritePc × Files ν β) =>
    Stands t umask doc f₀ as s.1 s.2) ?_ ?_ h
  · exact ⟨rfl, List.not_mem_nil, rfl, fun _ => List.not_mem_nil, List.not_mem_nil⟩
  · rintro as ⟨pc, f⟩ a ⟨pc', f'⟩ hs hnext
    exact (stepped_of_next hnext).stands hs

/-- **When a failed write leaves no trace**: for either function, whatever the faults, if the
removes of the temp go through and it returns false, then every file is as it was, and there is none
that was not, exactly when the schedule is one that leaves no trace. -/
theorem tracelessly_iff
    (h : runActions (w.next t umask doc) (.start, f₀) as = some (.returned false, f))
    (hremoves : .removeTmp false ∉ as) :
    (∀ n, f.find n = f₀.find n) ↔ LeavesNoTrace doc as t f₀ := by
  rcases stands_of_run h with ⟨rfl, hno⟩ | ⟨hbeside, hopens, ⟨hflushes, hgone⟩ | ⟨hnot, hfind⟩⟩
  · exact iff_of_true (fun _ => rfl) (Or.inl hno)
  · have hnone : f.find t.tmp = none := hgone.resolve_right hremoves
    constructor
    · intro hsame
      exact Or.inr (Or.inl ⟨hflushes, (hsame t.tmp).symm.trans hnone⟩)
    · rintro (hno | ⟨-, hfree⟩ | ⟨hnot, -⟩) n
      · exact absurd hopens hno
      · by_cases hn : n = t.tmp
        · rw [hn, hnone, hfree]
        · exact hbeside n hn
      · exact absurd hflushes hnot
  · constructor
    · intro hsame
      exact Or.inr (Or.inr ⟨hnot, _, (hsame t.tmp).symm.trans hfind⟩)
    · rintro (hno | ⟨hflushes, -⟩ | ⟨-, mode, hold⟩) n
      · exact absurd hopens hno
      · exact absurd hflushes hnot
      · by_cases hn : n = t.tmp
        · have hmode : f₀.modeAt (createdMode umask) t.tmp = mode := by
            rw [Files.modeAt, hold]
            rfl
          rw [hn, hfind, hold, hmode]
        · exact hbeside n hn

end Run

/-! ## 5. Modes -/

section Modes

variable {ν β : Type} [DecidableEq ν] [Inhabited β] {w : Writer} {t : Target ν} {umask : Nat}
  {doc : List β} {f f' f₀ : Files ν β} {pc pc' : WritePc} {a : WriteAction β}

/-- A file of the writer's: of its text, and at the mode it was opened or restricted to. -/
def Writer.Wrote (w : Writer) (t : Target ν) (umask : Nat) (doc : List β) (f₀ : Files ν β)
    (x : Inode β) : Prop :=
  (x.mode = f₀.modeAt (createdMode umask) t.tmp ∨ x.mode = w.mode) ∧ x.data ⊆ doc

/-- What the temp is, while there is one: at the mode it was opened at, and of the text. -/
structure Filling (t : Target ν) (umask : Nat) (doc : List β) (f₀ : Files ν β) (fd offset : Nat)
    (f : Files ν β) : Prop where
  beside : Beside t f₀ f
  inode : f.inode t.tmp = some fd
  mode : (f.node fd).mode = f₀.modeAt (createdMode umask) t.tmp
  offset : offset = (f.node fd).data.length
  data : (f.node fd).data ⊆ doc

/-- Every file is as before or the writer's, and none but those of its two names has changed. -/
structure Keeps (w : Writer) (t : Target ν) (umask : Nat) (doc : List β) (f₀ f : Files ν β) :
    Prop where
  files : ∀ n x, f.find n = some x → f₀.find n = some x ∨ w.Wrote t umask doc f₀ x
  others : ∀ n, n ≠ t.tmp → n ≠ t.path → f.find n = f₀.find n

/-- What the modes are at each place, whatever the run has been. -/
def Modes (w : Writer) (t : Target ν) (umask : Nat) (doc : List β) (f₀ : Files ν β) :
    WritePc → Files ν β → Prop
  | .start, f | .prepared, f => f = f₀
  | .opened fd offset, f | .failed fd offset, f => Filling t umask doc f₀ fd offset f
  | .closed, f | .restricted, f | .renameFailed, f =>
      Beside t f₀ f ∧ ∀ x, f.find t.tmp = some x → w.Wrote t umask doc f₀ x
  | .returned _, f | .dead, f => Keeps w t umask doc f₀ f

omit [DecidableEq ν] [Inhabited β] in
theorem Keeps.of_beside (h : Beside t f₀ f)
    (htmp : ∀ x, f.find t.tmp = some x → w.Wrote t umask doc f₀ x) :
    Keeps w t umask doc f₀ f where
  files n x hx := by
    by_cases hn : n = t.tmp
    · exact Or.inr (htmp x (hn ▸ hx))
    · exact Or.inl ((h n hn).symm.trans hx)
  others n hn _ := h n hn

omit [DecidableEq ν] [Inhabited β] in
theorem Filling.wrote {fd offset : Nat} (h : Filling t umask doc f₀ fd offset f) :
    ∀ x, f.find t.tmp = some x → w.Wrote t umask doc f₀ x := by
  intro x hx
  rw [Files.find_eq h.inode] at hx
  cases hx
  exact ⟨Or.inl h.mode, h.data⟩

omit [DecidableEq ν] [Inhabited β] in
/-- At every place the writer has kept to its own. -/
theorem Modes.keeps (h : Modes w t umask doc f₀ pc f) : Keeps w t umask doc f₀ f := by
  cases pc with
  | start => exact h ▸ ⟨fun n x hx => Or.inl hx, fun _ _ _ => rfl⟩
  | prepared => exact h ▸ ⟨fun n x hx => Or.inl hx, fun _ _ _ => rfl⟩
  | opened fd offset => exact .of_beside h.beside h.wrote
  | failed fd offset => exact .of_beside h.beside h.wrote
  | closed => exact .of_beside h.1 h.2
  | restricted => exact .of_beside h.1 h.2
  | renameFailed => exact .of_beside h.1 h.2
  | returned ok => exact h
  | dead => exact h

omit [DecidableEq ν] in
theorem Filling.write {fd offset : Nat} {chunk : List β}
    (h : Filling t umask doc f₀ fd offset f) (hchunk : chunk ⊆ doc) :
    Filling t umask doc f₀ fd (offset + chunk.length) (f.write fd offset chunk) where
  beside := h.beside.write h.inode
  inode := h.inode
  mode := by rw [Files.write_node_end rfl h.offset, h.mode]
  offset := by rw [Files.write_node_end rfl h.offset, List.length_append, h.offset]
  data := by
    rw [Files.write_node_end rfl h.offset]
    exact List.append_subset.mpr ⟨h.data, hchunk⟩

/-- **Each step keeps the modes**, as long as what a fault leaves is of the text. -/
theorem Stepped.modes (h : Stepped w t umask doc f pc a pc' f')
    (hfault : ∀ left, a = .writeFails left → left ⊆ doc) (hs : Modes w t umask doc f₀ pc f) :
    Modes w t umask doc f₀ pc' f' := by
  cases h with
  | died => exact hs.keeps
  | prepared => exact hs
  | unprepared => exact hs.keeps
  | opened =>
    cases hs
    obtain ⟨hself, hdata⟩ := f.openTrunc_self (createdMode umask) t.tmp
    exact ⟨beside_openTrunc t f _, hself, f.openTrunc_mode ..,
      (congrArg List.length hdata).symm, hdata.symm ▸ List.nil_subset _⟩
  | unopened => exact hs.keeps
  | chunk fd written n =>
    exact hs.write fun x hx => List.mem_of_mem_drop (List.mem_of_mem_take hx)
  | fault fd offset left hpc =>
    have hfilling : Filling t umask doc f₀ fd offset f := by
      rcases hpc with rfl | rfl
      · exact hs
      · exact hs
    exact hfilling.write (hfault left rfl)
  | unflushed => exact .of_beside hs.beside hs.wrote
  | failed => exact .of_beside hs.beside hs.wrote
  | closed => exact ⟨hs.beside, hs.wrote⟩
  | restricted =>
    obtain ⟨hbeside, htmp⟩ := hs
    refine ⟨hbeside.chmod, fun x hx => ?_⟩
    obtain ⟨i, hi, -⟩ := Option.map_eq_some_iff.mp hx
    rw [Files.chmod_inode] at hi
    have hfind := Files.find_eq hi
    rw [Files.chmod_find_self hfind] at hx
    cases hx
    exact ⟨Or.inr rfl, (htmp _ hfind).2⟩
  | unrestricted => exact hs
  | refused => exact hs
  | renamed hrename =>
    obtain ⟨hbeside, htmp⟩ := hs
    refine ⟨fun n x hx => ?_, fun n htmp' hpath => ?_⟩
    · by_cases hpath : n = t.path
      · subst hpath
        rw [Files.rename_find_dest hrename] at hx
        exact Or.inr (htmp x hx)
      · by_cases hn : n = t.tmp
        · rw [hn, Files.rename_find_source hrename t.ne] at hx
          cases hx
        · rw [Files.rename_find_of_ne hrename hn hpath] at hx
          exact Or.inl ((hbeside n hn).symm.trans hx)
    · exact (Files.rename_find_of_ne hrename htmp' hpath).trans (hbeside n htmp')
  | unrenamed => exact hs
  | removed =>
    obtain ⟨hbeside, -⟩ := hs
    refine .of_beside hbeside.unlink fun x hx => ?_
    rw [Files.find, Files.unlink_inode_self] at hx
    cases hx
  | unremoved => exact .of_beside hs.1 hs.2

end Modes

/-! ## 6. A disk that is full -/

/-- Where a daemon keeps the token for the clients of its session. -/
def autoToken : Target Place := target "/home/ada/.logoscore/client/auto.json" 4242 0

/-- The rename fails: there is a directory in the way. -/
def directoryInTheWay : List (WriteAction UInt8) :=
  [.createDirectories true, .openTmp true, .writeChunk 3, .close true, .chmod true, .rename false,
    .removeTmp true]

/-- The temp is gone again. -/
theorem directoryInTheWay_traceless :
    ∃ f : Files Place UInt8, runActions ((Writer.atomicWriteText ownerOnly).next autoToken 0o022
        (ascii "abc")) (.start, Files.empty) directoryInTheWay = some (.returned false, f) ∧
      ∀ n, f.find n = Files.empty.find n := by
  obtain ⟨f, hrun⟩ : ∃ f : Files Place UInt8, runActions ((Writer.atomicWriteText ownerOnly).next
      autoToken 0o022 (ascii "abc")) (.start, Files.empty) directoryInTheWay =
        some (.returned false, f) := ⟨_, rfl⟩
  have hflushes : Flushes directoryInTheWay := ⟨by decide, by simp [directoryInTheWay]⟩
  exact ⟨f, hrun, (tracelessly_iff hrun (by decide)).mpr (Or.inr (Or.inl ⟨hflushes, rfl⟩))⟩

/-- The write fails: the disk is full. -/
def diskFull : List (WriteAction UInt8) :=
  [.createDirectories true, .openTmp true, .writeFails (ascii "a"), .close false]

/-- **A full disk leaves the temp behind**, with the part of the text that was written. -/
theorem diskFull_leaves_temp :
    ¬ ∀ (w : Writer) (t : Target Place) (umask : Nat) (doc : List UInt8) (f₀ f : Files Place UInt8)
      (as : List (WriteAction UInt8)),
      runActions (w.next t umask doc) (.start, f₀) as = some (.returned false, f) →
        .removeTmp false ∉ as → ∀ n, f.find n = f₀.find n := by
  intro h
  obtain ⟨f, hrun⟩ : ∃ f : Files Place UInt8, runActions ((Writer.atomicWriteText ownerOnly).next
      autoToken 0o022 (ascii "abc")) (.start, Files.empty) diskFull =
        some (.returned false, f) := ⟨_, rfl⟩
  have hsame := h _ _ _ _ _ _ _ hrun (by decide) autoToken.tmp
  rcases stands_of_run hrun with ⟨-, hno⟩ | ⟨-, -, ⟨hflushes, -⟩ | ⟨-, hfind⟩⟩
  · exact hno (show WriteAction.openTmp true ∈ diskFull by decide)
  · exact hflushes.2 (ascii "a") (by decide)
  · rw [hfind] at hsame
    cases hsame

end Logosctl.AtomicWrite
