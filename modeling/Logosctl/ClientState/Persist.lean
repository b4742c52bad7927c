/-
# Persisting the client's configuration

`ClientStateFile::write` opens the configuration itself, which empties it, and writes into it.  It
answers what the stream thinks of itself before it is closed: by then some or all of the text may
still be in the stream's buffer, and whether the flush at the close goes through nobody asks.

So a fault can leave half a configuration, and a call can report one as written that is empty.
`persisted_iff` says for every fault, and for a crash at every step, when neither happens.
-/
import Logosctl.ClientArtifacts
import Logosctl.ClientState.Write
import Logosctl.TokenStore.Publishing

namespace Logosctl.ClientStateFile

open Library TokenStore

/-! ## 1. The steps -/

/-- Where a call stands.  A stream is good or has failed, and then it is closed: by then the answer
is known. -/
inductive PersistPc
  | start
  | prepared
  | writing (fd written : Nat)
  | failed (fd offset : Nat)
  | closing (fd written : Nat)
  | closeFailed (answer : Bool) (fd offset : Nat)
  | returned (ok : Bool)
  | dead
  deriving DecidableEq

/-- A system call and how it went, the question whether the stream is good, or the end of the
process.  What reaches the file while the text is put into the stream, and what only at the flush
when it is closed, is up to the buffer.  A write that fails leaves anything behind. -/
inductive PersistAction
  | createDirectories (ok : Bool)
  | openTrunc (ok : Bool)
  | writeChunk (n : Nat)
  | writeFails (left : List Char)
  | good
  | flushChunk (n : Nat)
  | flushFails (left : List Char)
  | close (ok : Bool)
  | die
  deriving DecidableEq

/-- The text that is put into the stream. -/
def text (fmt : Format) (state : ClientState) : List Char :=
  (fmt.config (ClientStateFile.document state)).toList

section Steps

variable {ν : Type} [DecidableEq ν] (path : ν) (umask : Nat) (doc : List Char)

/-- One step of `ClientStateFile::write`. -/
def writeStep (f : Files ν Char) : PersistPc → PersistAction → Option (PersistPc × Files ν Char)
  | .dead, _ => none
  | .returned _, _ => none
  | _, .die => some (.dead, f)
  | .start, .createDirectories ok => some (if ok then .prepared else .returned false, f)
  | .prepared, .openTrunc ok =>
    if ok then
      let (f, fd) := f.openTrunc (createdMode umask) path
      some (.writing fd 0, f)
    else some (.returned false, f)
  | .writing fd written, .writeChunk n =>
    let chunk := (doc.drop written).take n
    some (.writing fd (written + chunk.length), f.write fd written chunk)
  | .writing fd written, .writeFails left =>
    some (.failed fd (written + left.length), f.write fd written left)
  | .failed fd offset, .writeFails left =>
    some (.failed fd (offset + left.length), f.write fd offset left)
  | .writing fd written, .good => some (.closing fd written, f)
  | .failed fd offset, .good => some (.closeFailed false fd offset, f)
  | .closing fd written, .flushChunk n =>
    let chunk := (doc.drop written).take n
    some (.closing fd (written + chunk.length), f.write fd written chunk)
  | .closing fd written, .flushFails left =>
    some (.closeFailed true fd (written + left.length), f.write fd written left)
  | .closeFailed answer fd offset, .flushFails left =>
    some (.closeFailed answer fd (offset + left.length), f.write fd offset left)
  | .closing _ written, .close ok =>
    if ok ∧ written ≠ doc.length then none else some (.returned true, f)
  | .closeFailed answer _ _, .close _ => some (.returned answer, f)
  | _, _ => none

/-- A run of one call. -/
def next (s : PersistPc × Files ν Char) (a : PersistAction) : Option (PersistPc × Files ν Char) :=
  writeStep path umask doc s.2 s.1 a

end Steps

/-! ## 2. All or nothing -/

/-- One action, onto what has reached the file. -/
def reached (doc written : List Char) : PersistAction → List Char
  | .writeChunk n | .flushChunk n => written ++ (doc.drop written.length).take n
  | .writeFails left | .flushFails left => written ++ left
  | _ => written

/-- What reaches the file by a schedule. -/
def down (doc : List Char) (as : List PersistAction) : List Char := as.foldl (reached doc) []

/-- The call has returned, or its process has died. -/
def PersistPc.Ended : PersistPc → Prop
  | .returned _ | .dead => True
  | _ => False

/-- **All or nothing**: after a call that returned true the document is there, after one that
returned false what was there before, and after a crash one or the other. -/
def AllOrNothing {ν : Type} (path : ν) (doc : List Char) (f₀ f : Files ν Char) : PersistPc → Prop
  | .returned true => f.read path = some doc
  | .returned false => f.read path = f₀.read path
  | .dead => f.read path = f₀.read path ∨ f.read path = some doc
  | _ => True

/-- A write fails before the stream is asked. -/
def FailsEarly (as : List PersistAction) : Prop := ∃ left, .writeFails left ∈ as

/-- **The schedules that are harmless**: the file is never opened; or the text reaches it whole, and
no write fails before the stream is asked, or else the process dies; or the write fails by then, or
the process dies, and what has reached the file is what it held before. -/
def Harmless {ν : Type} (path : ν) (doc : List Char) (f₀ : Files ν Char)
    (as : List PersistAction) : Prop :=
  .openTrunc true ∉ as ∨ down doc as = doc ∧ (¬ FailsEarly as ∨ .die ∈ as) ∨
    f₀.read path = some (down doc as) ∧ (FailsEarly as ∨ .die ∈ as)

/-! ## 3. Runs -/

section Runs

variable {ν : Type} [DecidableEq ν] {path : ν} {umask : Nat} {doc : List Char}
  {f f' f₀ : Files ν Char} {pc pc' : PersistPc} {a : PersistAction} {as : List PersistAction}

/-- Nothing has been opened, and nothing written. -/
structure Untouched (doc : List Char) (f₀ : Files ν Char) (as : List PersistAction)
    (f : Files ν Char) : Prop where
  files : f = f₀
  opens : .openTrunc true ∉ as
  down : down doc as = []
  early : ¬ FailsEarly as

/-- The file is open, and holds what has reached it. -/
structure Open (path : ν) (doc : List Char) (as : List PersistAction) (fd offset : Nat)
    (f : Files ν Char) : Prop where
  opens : .openTrunc true ∈ as
  inode : f.inode path = some fd
  data : (f.node fd).data = down doc as
  offset : offset = (f.node fd).data.length

/-- Where a run stands. -/
def Stands (path : ν) (doc : List Char) (f₀ : Files ν Char) (as : List PersistAction) :
    PersistPc → Files ν Char → Prop
  | .start, f | .prepared, f => Untouched doc f₀ as f ∧ .die ∉ as
  | .writing fd offset, f | .closing fd offset, f =>
      Open path doc as fd offset f ∧ ¬ FailsEarly as ∧ .die ∉ as
  | .failed fd offset, f => Open path doc as fd offset f ∧ FailsEarly as ∧ .die ∉ as
  | .closeFailed answer fd offset, f =>
      Open path doc as fd offset f ∧ (answer = false ↔ FailsEarly as) ∧ .die ∉ as
  | .returned ok, f =>
      (Untouched doc f₀ as f ∧ ok = false ∨
        .openTrunc true ∈ as ∧ f.read path = some (down doc as) ∧ (ok = false ↔ FailsEarly as)) ∧
        .die ∉ as
  | .dead, f =>
      (Untouched doc f₀ as f ∨ .openTrunc true ∈ as ∧ f.read path = some (down doc as)) ∧ .die ∈ as

theorem down_append (doc : List Char) (as : List PersistAction) (a : PersistAction) :
    down doc (as ++ [a]) = reached doc (down doc as) a := List.foldl_append ..

@[simp] theorem failsEarly_append :
    FailsEarly (as ++ [a]) ↔ FailsEarly as ∨ ∃ left, a = .writeFails left := by
  simp [FailsEarly, exists_or, eq_comm]

omit [DecidableEq ν] in
theorem Open.read {fd offset : Nat} (h : Open path doc as fd offset f) :
    f.read path = some (down doc as) := by
  rw [Files.read, Files.find_eq h.inode, Option.map_some, h.data]

omit [DecidableEq ν] in
/-- A step that writes nothing leaves the file open. -/
theorem Open.append {fd offset : Nat} (h : Open path doc as fd offset f)
    (ha : ∀ written, reached doc written a = written) :
    Open path doc (as ++ [a]) fd offset f where
  opens := List.mem_append_left _ h.opens
  inode := h.inode
  data := by rw [down_append, ha, h.data]
  offset := h.offset

omit [DecidableEq ν] in
/-- Writing on. -/
theorem Open.write {fd offset : Nat} (h : Open path doc as fd offset f) {chunk : List Char}
    (ha : reached doc (down doc as) a = down doc as ++ chunk) :
    Open path doc (as ++ [a]) fd (offset + chunk.length) (f.write fd offset chunk) where
  opens := List.mem_append_left _ h.opens
  inode := h.inode
  data := by rw [Files.write_node_end rfl h.offset, down_append, ha, h.data]
  offset := by rw [Files.write_node_end rfl h.offset, List.length_append, h.offset]

omit [DecidableEq ν] in
/-- What the stream writes next of the text. -/
theorem Open.chunk {fd offset : Nat} (h : Open path doc as fd offset f) (n : Nat) :
    down doc as ++ (doc.drop (down doc as).length).take n =
      down doc as ++ (doc.drop offset).take n := by
  rw [h.offset, h.data]

omit [DecidableEq ν] in
theorem Untouched.append (h : Untouched doc f₀ as f) (hopen : a ≠ .openTrunc true)
    (hdown : reached doc [] a = []) (hearly : ∀ left, a ≠ .writeFails left) :
    Untouched doc f₀ (as ++ [a]) f where
  files := h.files
  opens := by simp [h.opens, hopen.symm]
  down := by rw [down_append, h.down, hdown]
  early := by simp [h.early, hearly]

/-- A process that dies leaves the file as it stands. -/
theorem Stands.die (hs : Stands path doc f₀ as pc f)
    (h : next path umask doc (pc, f) .die = some (pc', f')) :
    Stands path doc f₀ (as ++ [.die]) pc' f' := by
  have hat : pc' = .dead ∧ f' = f ∧
      (Untouched doc f₀ as f ∨ ∃ fd offset, Open path doc as fd offset f) := by
    cases pc with
    | start =>
      cases h
      exact ⟨rfl, rfl, Or.inl hs.1⟩
    | prepared =>
      cases h
      exact ⟨rfl, rfl, Or.inl hs.1⟩
    | writing =>
      cases h
      exact ⟨rfl, rfl, Or.inr ⟨_, _, hs.1⟩⟩
    | failed =>
      cases h
      exact ⟨rfl, rfl, Or.inr ⟨_, _, hs.1⟩⟩
    | closing =>
      cases h
      exact ⟨rfl, rfl, Or.inr ⟨_, _, hs.1⟩⟩
    | closeFailed =>
      cases h
      exact ⟨rfl, rfl, Or.inr ⟨_, _, hs.1⟩⟩
    | returned => cases h
    | dead => cases h
  obtain ⟨rfl, rfl, huntouched | ⟨fd, offset, hopen⟩⟩ := hat
  · exact ⟨Or.inl (huntouched.append nofun rfl nofun), by simp⟩
  · have hopen' := hopen.append (a := .die) fun _ => rfl
    exact ⟨Or.inr ⟨hopen'.opens, hopen'.read⟩, by simp⟩

/-- **Each step leaves the run where it may stand.** -/
theorem Stands.next (hs : Stands path doc f₀ as pc f)
    (h : next path umask doc (pc, f) a = some (pc', f')) :
    Stands path doc f₀ (as ++ [a]) pc' f' := by
  by_cases hdie : a = .die
  · subst hdie
    exact hs.die h
  cases pc with
  | start =>
    cases a with
    | createDirectories ok =>
      cases h
      have hstill := hs.1.append (a := .createDirectories ok) nofun rfl nofun
      cases ok with
      | true => exact ⟨hstill, by simpa using hs.2⟩
      | false => exact ⟨Or.inl ⟨hstill, rfl⟩, by simpa using hs.2⟩
    | die => exact absurd rfl hdie
    | _ => cases h
  | prepared =>
    cases a with
    | openTrunc ok =>
      cases ok with
      | true =>
        cases h
        obtain ⟨hself, hdata⟩ := f.openTrunc_self (createdMode umask) path
        have hnone : down doc (as ++ [.openTrunc true]) = [] := (down_append ..).trans hs.1.down
        exact ⟨⟨by simp, hself, hdata.trans hnone.symm, (congrArg List.length hdata).symm⟩,
          by simpa using hs.1.early, by simpa using hs.2⟩
      | false =>
        cases h
        exact ⟨Or.inl ⟨hs.1.append nofun rfl nofun, rfl⟩, by simpa using hs.2⟩
    | die => exact absurd rfl hdie
    | _ => cases h
  | writing fd written =>
    obtain ⟨hopen, hearly, hlive⟩ := hs
    cases a with
    | writeChunk n =>
      cases h
      exact ⟨hopen.write (hopen.chunk n), by simpa using hearly, by simpa using hlive⟩
    | writeFails left =>
      cases h
      exact ⟨hopen.write rfl, by simp, by simpa using hlive⟩
    | good =>
      cases h
      exact ⟨hopen.append fun _ => rfl, by simpa using hearly, by simpa using hlive⟩
    | die => exact absurd rfl hdie
    | _ => cases h
  | failed fd offset =>
    obtain ⟨hopen, hearly, hlive⟩ := hs
    cases a with
    | writeFails left =>
      cases h
      exact ⟨hopen.write rfl, by simp, by simpa using hlive⟩
    | good =>
      cases h
      exact ⟨hopen.append fun _ => rfl, by simpa using hearly, by simpa using hlive⟩
    | die => exact absurd rfl hdie
    | _ => cases h
  | closing fd written =>
    obtain ⟨hopen, hearly, hlive⟩ := hs
    cases a with
    | flushChunk n =>
      cases h
      exact ⟨hopen.write (hopen.chunk n), by simpa using hearly, by simpa using hlive⟩
    | flushFails left =>
      cases h
      exact ⟨hopen.write rfl, by simpa using hearly, by simpa using hlive⟩
    | close ok =>
      have hopen' := hopen.append (a := .close ok) fun _ => rfl
      simp only [ClientStateFile.next, writeStep] at h
      split at h
      · cases h
      · cases h
        exact ⟨Or.inr ⟨hopen'.opens, hopen'.read, by simpa using hearly⟩, by simpa using hlive⟩
    | die => exact absurd rfl hdie
    | _ => cases h
  | closeFailed answer fd offset =>
    obtain ⟨hopen, hearly, hlive⟩ := hs
    cases a with
    | flushFails left =>
      cases h
      exact ⟨hopen.write rfl, by simpa using hearly, by simpa using hlive⟩
    | close ok =>
      cases h
      have hopen' := hopen.append (a := .close ok) fun _ => rfl
      exact ⟨Or.inr ⟨hopen'.opens, hopen'.read, by simpa using hearly⟩, by simpa using hlive⟩
    | die => exact absurd rfl hdie
    | _ => cases h
  | returned ok => cases h
  | dead => cases h

theorem stands_of_run (h : runActions (next path umask doc) (.start, f₀) as = some (pc, f)) :
    Stands path doc f₀ as pc f := by
  refine runActions_invariant (I := fun as (s : PersistPc × Files ν Char) =>
    Stands path doc f₀ as s.1 s.2) ?_ ?_ h
  · exact ⟨⟨rfl, List.not_mem_nil, rfl, by simp [FailsEarly]⟩, List.not_mem_nil⟩
  · rintro as ⟨pc, f⟩ a ⟨pc', f'⟩ hs hnext
    exact hs.next hnext

/-- The actions of a call for which all goes well. -/
def smooth (length : Nat) : List PersistAction :=
  [.createDirectories true, .openTrunc true, .writeChunk length, .good, .close true]

theorem returns_true_of_smooth (path : ν) (umask : Nat) (doc : List Char) (f₀ : Files ν Char) :
    ∃ f, runActions (next path umask doc) (.start, f₀) (smooth doc.length) =
      some (.returned true, f) := by
  simp [smooth, runActions, next, writeStep]

omit [DecidableEq ν] in
theorem harmless_smooth (path : ν) (doc : List Char) (f₀ : Files ν Char) :
    Harmless path doc f₀ (smooth doc.length) := by
  refine Or.inr (Or.inl ⟨?_, Or.inl ?_⟩)
  · simp [smooth, down, reached]
  · simp [smooth, FailsEarly]

/-- The text is still in the buffer when the stream is asked, and the disk is full. -/
def fullAtClose : List PersistAction :=
  [.createDirectories true, .openTrunc true, .good, .flushFails [], .close false]

/-- Then the call returns true, and the file is empty. -/
theorem returns_true_of_fullAtClose (path : ν) (umask : Nat) (doc : List Char)
    (f₀ : Files ν Char) : ∃ f, runActions (next path umask doc) (.start, f₀) fullAtClose =
      some (.returned true, f) ∧ f.read path = some [] := by
  obtain ⟨f, hrun⟩ : ∃ f, runActions (next path umask doc) (.start, f₀) fullAtClose =
      some (.returned true, f) := ⟨_, rfl⟩
  obtain ⟨⟨-, hfalse⟩ | ⟨-, hread, -⟩, -⟩ := stands_of_run hrun
  · cases hfalse
  · exact ⟨f, hrun, hread⟩

end Runs

/-! ## 4. Persisting -/

section Persist

variable {ν : Type} [DecidableEq ν] {path : ν} {umask : Nat} {fmt : Format} {state : ClientState}
  {f f₀ : Files ν Char} {pc : PersistPc} {as : List PersistAction}

/-- **When persisting is all or nothing**: for every state that is written, every configuration that
was there before, and every fault or crash, exactly when the schedule is harmless to it. -/
theorem persisted_iff
    (h : runActions (next path umask (text fmt state)) (.start, f₀) as = some (pc, f))
    (hended : pc.Ended) :
    AllOrNothing path (text fmt state) f₀ f pc ↔ Harmless path (text fmt state) f₀ as := by
  have hs := stands_of_run h
  cases pc with
  | returned ok =>
    obtain ⟨⟨huntouched, rfl⟩ | ⟨hopens, hread, hanswer⟩, hlive⟩ := hs
    · exact iff_of_true (by rw [huntouched.files]; rfl) (Or.inl huntouched.opens)
    · cases ok with
      | true =>
        have hgood : ¬ FailsEarly as := fun hearly => by simpa using hanswer.mpr hearly
        simp [AllOrNothing, Harmless, hread, hopens, hgood, hlive]
      | false =>
        have hearly : FailsEarly as := hanswer.mp rfl
        simp [AllOrNothing, Harmless, hread, hopens, hearly, hlive, eq_comm]
  | dead =>
    obtain ⟨huntouched | ⟨hopens, hread⟩, hdied⟩ := hs
    · exact iff_of_true (Or.inl (by rw [huntouched.files])) (Or.inl huntouched.opens)
    · simp [AllOrNothing, Harmless, hread, hopens, hdied, eq_comm, or_comm]
  | _ => exact absurd hended id

/-- In the older program the text has at least its newline. -/
theorem text_ne_nil (h : fmt.flavor = .legacy) : text fmt state ≠ [] := by
  simp [text, Format.config, Format.json, h]

end Persist

/-! ## 5. A disk that is full -/

/-- The client of a session, by one local listener. -/
def localClient : ClientState where
  tokenFile := "auto.json"
  daemon := OrderedMap.emplace "core_service" { protocol := "local" } ∅

/-- The older program's format, on this state. -/
def olderFormat : Format where
  yaml := YamlJson.knowingAll []
  jsonText := Json.dump4 fun _ _ => ""
  parseJson := parseOnly (ClientStateFile.document localClient)
  flavor := .legacy

/-- `Config::clientConfigPath` of the older program. -/
def clientConfig : Place := resolve "/home/ada/.logoscore/client/config.json"

/-- The directory with a configuration in it. -/
def configured : Files Place Char :=
  ((Files.empty.openTrunc 0o600 clientConfig).1.write 0 0 "\x7b\"version\": 2\x7d\n".toList)

/-- When all goes well the configuration is replaced. -/
theorem localClient_persisted :
    ∃ f, runActions (next clientConfig 0o022 (text olderFormat localClient)) (.start, configured)
        (smooth (text olderFormat localClient).length) = some (.returned true, f) ∧
      AllOrNothing clientConfig (text olderFormat localClient) configured f (.returned true) := by
  obtain ⟨f, hrun⟩ := returns_true_of_smooth clientConfig 0o022 (text olderFormat localClient)
    configured
  exact ⟨f, hrun, (persisted_iff hrun trivial).mpr (harmless_smooth ..)⟩

/-- **A full disk**: the configuration is reported as written, and is empty. -/
theorem fullAtClose_reported :
    ¬ ∀ (path : Place) (umask : Nat) (fmt : Format) (state : ClientState) (f₀ f : Files Place Char)
      (pc : PersistPc) (as : List PersistAction),
      runActions (next path umask (text fmt state)) (.start, f₀) as = some (pc, f) → pc.Ended →
        AllOrNothing path (text fmt state) f₀ f pc := by
  intro h
  obtain ⟨f, hrun, hread⟩ := returns_true_of_fullAtClose clientConfig 0o022
    (text olderFormat localClient) configured
  have hwhole : f.read clientConfig = some (text olderFormat localClient) :=
    h _ _ _ _ _ _ _ _ hrun trivial
  exact text_ne_nil rfl (Option.some.inj (hwhole.symm.trans hread))

end Logosctl.ClientStateFile
