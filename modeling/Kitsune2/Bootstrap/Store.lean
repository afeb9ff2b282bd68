import Mathlib.Data.List.Nodup
import Kitsune2.Api.Basic
import Kitsune2.Lib.Files

/-!
# Store — infos in tempfiles, read back by offset and length

A call of `write` takes a writer from the pool or opens a new tempfile, and notes the position at which
it starts to write.  When all is written and synced the writer goes back to the pool, unless the file has
become too long.  After any error the writer is dropped, with whatever it has left behind in its file.

Calls run at the same time, one step at a time, with the answers the operating system gives to each step.
-/

namespace Kitsune2
namespace Bootstrap

open Api Lib

/-- `MAX_PER_TEMPFILE`. -/
def maxPerTempfile : Nat := 1024 * 1024 * 10

/-- The writable handle of a tempfile.  `readClone` is the tempfile, by the order of creation. -/
structure Writer where
  readClone : Nat
  position : Nat
  deriving DecidableEq, Repr

structure StoreEntryRef where
  readClone : Nat
  offset : Nat
  length : Nat
  deriving DecidableEq, Repr

/-- A call of `write`. -/
inductive WriteCall where
  /-- The call has no writer yet. -/
  | taking (content : Bytes)
  /-- Next it asks for the stream position. -/
  | positioning (content : Bytes) (writer : Writer)
  /-- The rest is to be written; when there is none, the file is synced. -/
  | writing (content rest : Bytes) (writer : Writer) (offset : Nat)
  /-- The reference, and the content that the call was for. -/
  | returned (content : Bytes) (entry : StoreEntryRef)
  | failed
  deriving DecidableEq, Repr

/-- The store, with its tempfiles and all calls so far. -/
structure Store where
  tempfiles : List Bytes
  writerPool : List Writer
  calls : List WriteCall
  deriving DecidableEq, Repr

/-- What the operating system answers. -/
inductive IoAnswer where
  | done
  /-- So many bytes were written. -/
  | wrote (count : Nat)
  /-- An error; a write can leave bytes behind. -/
  | error (left : Bytes)
  deriving DecidableEq, Repr

inductive StoreEvent where
  | write (content : Bytes)
  /-- The call with this number makes its next step. -/
  | advance (i : Nat) (answer : IoAnswer)
  deriving DecidableEq, Repr

namespace StoreEntryRef

/-- `StoreEntryRef::read` while the operating system reopens the file, seeks and reads as it should: the
bytes go to the end of the buffer.  An error leaves the buffer alone.  What becomes of a reference that
cannot be read is up to the caller (`Space.update`, `Space.read`), who is told of it. -/
def read (s : Store) (entry : StoreEntryRef) (buf : Bytes) : Option Bytes :=
  match s.tempfiles[entry.readClone]? with
  | none => none
  | some file =>
      let bytes := slice file entry.offset entry.length
      if bytes.length = entry.length then some (buf ++ bytes) else none

/-- `StoreEntryRef::parse`. -/
def parse {ParsedEntry : Type} (tryFromSlice : Bytes → Option ParsedEntry) (s : Store)
    (entry : StoreEntryRef) : Option ParsedEntry :=
  (entry.read s []).bind tryFromSlice

/-- The bytes of one reference come before those of the other. -/
def Apart (entry entry' : StoreEntryRef) : Prop :=
  entry.offset + entry.length ≤ entry'.offset ∨ entry'.offset + entry'.length ≤ entry.offset

end StoreEntryRef

namespace Store

/-- `Store::default`. -/
def default : Store where
  tempfiles := []
  writerPool := []
  calls := []

/-- A write through a writer. -/
def writeThrough (s : Store) (writer : Writer) (bytes : Bytes) : Store :=
  { s with
    tempfiles := s.tempfiles.modify writer.readClone fun file =>
      overwrite 0 file writer.position bytes }

/-- The next step of a call. -/
@[simp]
def advance (s : Store) : WriteCall → IoAnswer → WriteCall × Store
  | .taking content, answer =>
      match s.writerPool with
      | writer :: pool => (.positioning content writer, { s with writerPool := pool })
      | [] =>
          match answer with
          | .error _ => (.failed, s)
          | _ =>
              (.positioning content ⟨s.tempfiles.length, 0⟩,
                { s with tempfiles := s.tempfiles ++ [[]] })
  | .positioning _ _, .error _ => (.failed, s)
  | .positioning content writer, _ => (.writing content content writer writer.position, s)
  | .writing _ [] _ _, .error _ => (.failed, s)
  | .writing content [] writer offset, _ =>
      (.returned content ⟨writer.readClone, offset, content.length⟩,
        if offset + content.length < maxPerTempfile then
          { s with writerPool := s.writerPool ++ [writer] }
        else s)
  | .writing _ _ writer _, .error left => (.failed, s.writeThrough writer left)
  -- `write_all` takes a write of no bytes for an error
  | .writing _ _ _ _, .wrote 0 => (.failed, s)
  | .writing content rest writer offset, .wrote count =>
      (.writing content (rest.drop count)
          { writer with position := writer.position + (rest.take count).length } offset,
        s.writeThrough writer (rest.take count))
  -- an interrupted write is tried again
  | call, _ => (call, s)

def step (s : Store) : StoreEvent → Store
  | .write content => { s with calls := s.calls ++ [.taking content] }
  | .advance i answer =>
      match s.calls[i]? with
      | none => s
      | some call =>
          { (s.advance call answer).2 with calls := s.calls.set i (s.advance call answer).1 }

def run (events : List StoreEvent) : Store :=
  events.foldl step default

/-! ## One writer for a file -/

end Store

/-- The writer that a call has in hand. -/
def WriteCall.writer : WriteCall → Option Writer
  | .positioning _ writer => some writer
  | .writing _ _ writer _ => some writer
  | _ => none

namespace Store

/-- The writer in the hands of the call with this number. -/
def held (s : Store) (i : Nat) : Option Writer :=
  s.calls[i]?.bind WriteCall.writer

/-- No two writers are of one file. -/
structure OneWriter (s : Store) : Prop where
  pool : (s.writerPool.map Writer.readClone).Nodup
  calls : ∀ {i j : Nat} {w w'}, s.held i = some w → s.held j = some w' →
    w.readClone = w'.readClone → i = j
  apart : ∀ {i : Nat} {w}, s.held i = some w → ∀ w' ∈ s.writerPool, w'.readClone ≠ w.readClone

variable {s s' : Store} {i : Nat} {call call' : WriteCall} {writer : Writer}

theorem held_of_call (hcall : s.calls[i]? = some call) : s.held i = call.writer := by
  unfold held
  rw [hcall]
  rfl

theorem held_set (hcall : s.calls[i]? = some call) (hcalls : s'.calls = s.calls.set i call')
    (j : Nat) : s'.held j = if i = j then call'.writer else s.held j := by
  unfold held
  rw [hcalls]
  split
  · rename_i hij
    subst hij
    rw [List.getElem?_set_self (List.getElem?_eq_some_iff.mp hcall).1]
    rfl
  · rename_i hij
    rw [List.getElem?_set_ne hij]

/-- The call has the writer of the same file as before, or none any more. -/
theorem OneWriter.set (h : OneWriter s) (hcall : s.calls[i]? = some call)
    (hcalls : s'.calls = s.calls.set i call') (hpool : s'.writerPool = s.writerPool)
    (hsame : ∀ w', call'.writer = some w' → ∃ w, call.writer = some w ∧
      w.readClone = w'.readClone) : OneWriter s' := by
  -- who has a writer had one of the same file before
  have hheld : ∀ j w', s'.held j = some w' → ∃ w, s.held j = some w ∧
      w.readClone = w'.readClone := by
    intro j w' hw'
    rw [held_set hcall hcalls] at hw'
    split at hw'
    · rename_i hij
      subst hij
      rw [held_of_call hcall]
      exact hsame w' hw'
    · exact ⟨w', hw', rfl⟩
  refine ⟨hpool ▸ h.pool, ?_, ?_⟩
  · intro j k w w' hj hk heq
    rcases hheld j w hj with ⟨v, hv, hvw⟩
    rcases hheld k w' hk with ⟨v', hv', hvw'⟩
    exact h.calls hv hv' (hvw.trans (heq.trans hvw'.symm))
  · intro j w hj w' hw'
    rcases hheld j w hj with ⟨v, hv, hvw⟩
    rw [hpool] at hw'
    rw [← hvw]
    exact h.apart hv w' hw'

/-- The call has got a writer of a file that no other writer is of. -/
theorem OneWriter.take (h : OneWriter s) (hcall : s.calls[i]? = some call)
    (hcalls : s'.calls = s.calls.set i call') (htaken : call'.writer = some writer)
    (hpool : s'.writerPool.Sublist s.writerPool)
    (hpooled : ∀ w ∈ s'.writerPool, w.readClone ≠ writer.readClone)
    (hheld : ∀ j w, s.held j = some w → writer.readClone ≠ w.readClone) : OneWriter s' := by
  refine ⟨(hpool.map _).nodup h.pool, ?_, ?_⟩
  · intro j k w w' hj hk heq
    rw [held_set hcall hcalls] at hj hk
    split at hj
    · split at hk
      · rename_i hij hik
        exact hij.symm.trans hik
      · cases htaken.symm.trans hj
        exact absurd heq (hheld k w' hk)
    · split at hk
      · cases htaken.symm.trans hk
        exact absurd heq.symm (hheld j w hj)
      · exact h.calls hj hk heq
  · intro j w hj w' hw'
    rw [held_set hcall hcalls] at hj
    split at hj
    · cases htaken.symm.trans hj
      exact hpooled w' hw'
    · exact h.apart hj w' (hpool.subset hw')

/-- The call has given its writer back. -/
theorem OneWriter.giveBack (h : OneWriter s) (hcall : s.calls[i]? = some call)
    (hcalls : s'.calls = s.calls.set i call') (hheld : call.writer = some writer)
    (hnone : call'.writer = none) (hpool : s'.writerPool = s.writerPool ++ [writer]) :
    OneWriter s' := by
  have hwriter : s.held i = some writer := (held_of_call hcall).trans hheld
  -- the other calls hold what they held
  have hother : ∀ j w, s'.held j = some w → i ≠ j ∧ s.held j = some w := by
    intro j w hj
    rw [held_set hcall hcalls] at hj
    split at hj
    · rw [hnone] at hj
      cases hj
    · rename_i hij
      exact ⟨hij, hj⟩
  refine ⟨?_, ?_, ?_⟩
  · rw [hpool, List.map_append, List.nodup_append_comm]
    refine List.nodup_cons.mpr ⟨?_, h.pool⟩
    intro hmem
    rcases List.mem_map.mp hmem with ⟨w', hw', heq⟩
    exact h.apart hwriter w' hw' heq
  · intro j k w w' hj hk heq
    exact h.calls (hother j w hj).2 (hother k w' hk).2 heq
  · intro j w hj w' hw'
    rcases hother j w hj with ⟨hij, hj⟩
    rw [hpool] at hw'
    rcases List.mem_append.mp hw' with hold | hnew
    · exact h.apart hj w' hold
    · rw [List.mem_singleton.mp hnew]
      exact fun heq => hij (h.calls hwriter hj heq)

/-! ## What the files hold -/

/-- The writer stands at the end of its file. -/
def AtEnd (tempfiles : List Bytes) (writer : Writer) : Prop :=
  ∃ file, tempfiles[writer.readClone]? = some file ∧ writer.position = file.length

/-- What a call has written is in the file from its offset on. -/
def CallSound (tempfiles : List Bytes) : WriteCall → Prop
  | .positioning _ writer => AtEnd tempfiles writer
  | .writing content rest writer offset =>
      ∃ file written, tempfiles[writer.readClone]? = some file ∧ writer.position = file.length ∧
        written ++ rest = content ∧ offset + written.length = file.length ∧
        slice file offset written.length = written
  | .returned content entry =>
      entry.length = content.length ∧ ∃ file, tempfiles[entry.readClone]? = some file ∧
        entry.offset + entry.length ≤ file.length ∧
        slice file entry.offset entry.length = content
  | _ => True

/-- Files only grow, and of those that were there only the one with this number. -/
def GrowsAt (k : Option Nat) (tempfiles tempfiles' : List Bytes) : Prop :=
  ∀ j file, tempfiles[j]? = some file →
    ∃ tail, tempfiles'[j]? = some (file ++ tail) ∧ (k ≠ some j → tail = [])

theorem growsAt_refl (k : Option Nat) (tempfiles : List Bytes) : GrowsAt k tempfiles tempfiles :=
  fun _ file hfile => ⟨[], by rw [hfile, List.append_nil], fun _ => rfl⟩

variable {tempfiles tempfiles' : List Bytes} {k : Option Nat}

theorem GrowsAt.same (h : GrowsAt k tempfiles tempfiles') {j : Nat} {file : Bytes}
    (hfile : tempfiles[j]? = some file) (hne : k ≠ some j) : tempfiles'[j]? = some file := by
  rcases h j file hfile with ⟨tail, htail, hnil⟩
  rw [htail, hnil hne, List.append_nil]

theorem AtEnd.grow (h : AtEnd tempfiles writer) (hgrow : GrowsAt k tempfiles tempfiles')
    (hne : k ≠ some writer.readClone) : AtEnd tempfiles' writer := by
  rcases h with ⟨file, hfile, hposition⟩
  exact ⟨file, hgrow.same hfile hne, hposition⟩

theorem CallSound.grow (h : CallSound tempfiles call) (hgrow : GrowsAt k tempfiles tempfiles')
    (hne : ∀ w, call.writer = some w → k ≠ some w.readClone) : CallSound tempfiles' call := by
  cases call with
  | taking content => trivial
  | failed => trivial
  | positioning content writer => exact AtEnd.grow h hgrow (hne writer rfl)
  | writing content rest writer offset =>
      rcases h with ⟨file, written, hfile, hrest⟩
      exact ⟨file, written, hgrow.same hfile (hne writer rfl), hrest⟩
  | returned content entry =>
      rcases h with ⟨hlen, file, hfile, hend, hslice⟩
      rcases hgrow entry.readClone file hfile with ⟨tail, htail, _⟩
      refine ⟨hlen, file ++ tail, htail, ?_, ?_⟩
      · rw [List.length_append]
        omega
      · rw [slice_append hend, hslice]

/-! ## Every step -/

/-- No file has two writers, each writer stands at the end of its file, and every call has its own bytes
there, behind those of all references to the file. -/
structure Sound (s : Store) : Prop where
  oneWriter : OneWriter s
  pooled : ∀ w ∈ s.writerPool, AtEnd s.tempfiles w
  calls : ∀ {i : Nat} {call}, s.calls[i]? = some call → CallSound s.tempfiles call
  before : ∀ {i j : Nat} {content rest w offset content' entry},
    s.calls[i]? = some (.writing content rest w offset) →
    s.calls[j]? = some (.returned content' entry) →
    entry.readClone = w.readClone → entry.offset + entry.length ≤ offset
  apart : ∀ {i j : Nat} {content entry content' entry'}, i ≠ j →
    s.calls[i]? = some (.returned content entry) →
    s.calls[j]? = some (.returned content' entry') →
    entry.readClone = entry'.readClone → entry.Apart entry'

/-- One call makes a step. -/
theorem Sound.set (h : Sound s) (hcall : s.calls[i]? = some call)
    (hcalls : s'.calls = s.calls.set i call') (hone : OneWriter s')
    (hgrow : GrowsAt (call.writer.map Writer.readClone) s.tempfiles s'.tempfiles)
    (hpool : ∀ w ∈ s'.writerPool, w ∈ s.writerPool ∨ AtEnd s'.tempfiles w)
    (hsound : CallSound s'.tempfiles call')
    (hwriting : ∀ content rest w offset, call' = .writing content rest w offset →
      ∀ (j : Nat) content' entry, s.calls[j]? = some (.returned content' entry) →
        entry.readClone = w.readClone → entry.offset + entry.length ≤ offset)
    (hreturned : ∀ content entry, call' = .returned content entry →
      ∃ rest w, call = .writing content rest w entry.offset ∧ w.readClone = entry.readClone) :
    Sound s' := by
  have hself : (s.calls.set i call')[i]? = some call' :=
    List.getElem?_set_self (List.getElem?_eq_some_iff.mp hcall).1
  have hheld := held_of_call hcall
  -- the file that grows is of no other writer
  have hne : ∀ {j : Nat} {c}, i ≠ j → s.calls[j]? = some c → ∀ w, c.writer = some w →
      call.writer.map Writer.readClone ≠ some w.readClone := by
    intro j c hij hc w hw heq
    rcases Option.map_eq_some_iff.mp heq with ⟨v, hv, hvw⟩
    exact hij (h.oneWriter.calls (hheld.trans hv) ((held_of_call hc).trans hw) hvw)
  -- a call that has just returned was the one to write to its file
  have hlast : ∀ {j : Nat} {content entry content' rest w offset}, i ≠ j →
      call' = .returned content entry → s.calls[j]? = some (.writing content' rest w offset) →
      entry.readClone ≠ w.readClone := by
    intro j content entry content' rest w offset hij heq hj hclone
    rcases hreturned content entry heq with ⟨rest', w', hwas, hw'⟩
    have hwriter : call.writer = some w' := by rw [hwas]; rfl
    exact hij (h.oneWriter.calls (hheld.trans hwriter) (held_of_call hj)
      (hw'.trans hclone))
  refine ⟨hone, ?_, ?_, ?_, ?_⟩
  · intro w hw
    rcases hpool w hw with hold | hend
    · refine (h.pooled w hold).grow hgrow ?_
      intro heq
      rcases Option.map_eq_some_iff.mp heq with ⟨v, hv, hvw⟩
      exact h.oneWriter.apart (hheld.trans hv) w hold hvw.symm
    · exact hend
  · intro j c hc
    rw [hcalls] at hc
    by_cases hij : i = j
    · subst hij
      cases hself.symm.trans hc
      exact hsound
    · rw [List.getElem?_set_ne hij] at hc
      exact (h.calls hc).grow hgrow (hne hij hc)
  · intro j k content rest w offset content' entry hj hk hclone
    rw [hcalls] at hj hk
    by_cases hij : i = j
    · subst hij
      cases hself.symm.trans hj
      by_cases hik : i = k
      · subst hik
        cases hself.symm.trans hk
      · rw [List.getElem?_set_ne hik] at hk
        exact hwriting content rest w offset rfl k content' entry hk hclone
    · rw [List.getElem?_set_ne hij] at hj
      by_cases hik : i = k
      · subst hik
        exact absurd hclone (hlast hij (Option.some.inj (hself.symm.trans hk)) hj)
      · rw [List.getElem?_set_ne hik] at hk
        exact h.before hj hk hclone
  · intro j k content entry content' entry' hjk hj hk hclone
    rw [hcalls] at hj hk
    by_cases hij : i = j
    · subst hij
      rw [List.getElem?_set_ne hjk] at hk
      rcases hreturned content entry (Option.some.inj (hself.symm.trans hj)) with
        ⟨rest, w, hwas, hw⟩
      rw [hwas] at hcall
      exact Or.inr (h.before hcall hk (hclone.symm.trans hw.symm))
    · rw [List.getElem?_set_ne hij] at hj
      by_cases hik : i = k
      · subst hik
        rcases hreturned content' entry' (Option.some.inj (hself.symm.trans hk)) with
          ⟨rest, w, hwas, hw⟩
        rw [hwas] at hcall
        exact Or.inl (h.before hcall hj (hclone.trans hw.symm))
      · rw [List.getElem?_set_ne hik] at hk
        exact h.apart hjk hj hk hclone

/-- A call has failed, and has left its file longer or as it was. -/
theorem Sound.fail (h : Sound s) (hcall : s.calls[i]? = some call)
    (hcalls : s'.calls = s.calls.set i .failed) (hpool : s'.writerPool = s.writerPool)
    (hgrow : GrowsAt (call.writer.map Writer.readClone) s.tempfiles s'.tempfiles) : Sound s' := by
  refine h.set hcall hcalls (h.oneWriter.set hcall hcalls hpool ?_) hgrow ?_ trivial ?_ ?_
  · intro w' hw'
    cases hw'
  · exact fun w hw => Or.inl (hpool ▸ hw)
  · intro content rest w offset heq
    cases heq
  · intro content entry heq
    cases heq

theorem getElem?_writeThrough {file : Bytes} (hfile : s.tempfiles[writer.readClone]? = some file)
    (hend : writer.position = file.length) (bytes : Bytes) :
    (s.writeThrough writer bytes).tempfiles[writer.readClone]? = some (file ++ bytes) := by
  simp only [writeThrough]
  rw [List.getElem?_modify_eq, hfile, hend]
  exact congrArg some (overwrite_length 0 file bytes)

/-- A writer at the end of its file only appends to it. -/
theorem growsAt_writeThrough (hend : AtEnd s.tempfiles writer) (bytes : Bytes) :
    GrowsAt (some writer.readClone) s.tempfiles (s.writeThrough writer bytes).tempfiles := by
  intro j file hfile
  by_cases hj : writer.readClone = j
  · subst hj
    rcases hend with ⟨file', hfile', hposition⟩
    cases hfile.symm.trans hfile'
    exact ⟨bytes, getElem?_writeThrough hfile hposition bytes, fun hne => absurd rfl hne⟩
  · refine ⟨[], ?_, fun _ => rfl⟩
    simp only [writeThrough]
    rw [List.getElem?_modify_ne _ _ hj, hfile, List.append_nil]

theorem held_lt (h : Sound s) {j : Nat} {w : Writer} (hheld : s.held j = some w) :
    w.readClone < s.tempfiles.length := by
  rcases Option.bind_eq_some_iff.mp hheld with ⟨call, hcall, hwriter⟩
  have hsound := h.calls hcall
  cases call with
  | taking content => cases hwriter
  | failed => cases hwriter
  | returned content entry => cases hwriter
  | positioning content writer =>
      cases hwriter
      rcases hsound with ⟨file, hfile, _⟩
      exact (List.getElem?_eq_some_iff.mp hfile).1
  | writing content rest writer offset =>
      cases hwriter
      rcases hsound with ⟨file, _, hfile, _⟩
      exact (List.getElem?_eq_some_iff.mp hfile).1

/-- A call takes a writer from the pool, or opens a new file. -/
theorem Sound.advance_taking {content : Bytes} (h : Sound s)
    (hcall : s.calls[i]? = some (.taking content)) (answer : IoAnswer) :
    Sound (s.step (.advance i answer)) := by
  simp only [step, hcall]
  cases hpool : s.writerPool with
  -- a pooled writer: the pool shrinks by it and no other call holds it
  | cons writer pool =>
      have hnodup := h.oneWriter.pool
      rw [hpool, List.map_cons, List.nodup_cons] at hnodup
      have hmem : writer ∈ s.writerPool := hpool ▸ List.mem_cons_self
      simp only [Store.advance, hpool]
      refine h.set hcall rfl (h.oneWriter.take hcall rfl rfl ?_ ?_ ?_) (growsAt_refl _ _) ?_
        (h.pooled writer hmem) ?_ ?_
      · exact hpool ▸ List.sublist_cons_self writer pool
      · intro w hw heq
        exact hnodup.1 (List.mem_map.mpr ⟨w, hw, heq⟩)
      · exact fun j w hj => h.oneWriter.apart hj writer hmem
      · exact fun w hw => Or.inl (hpool ▸ List.mem_cons_of_mem _ hw)
      · intro content rest w offset heq
        cases heq
      · intro content entry heq
        cases heq
  -- a new temporary file: its number is above every writer that is held
  | nil =>
      have hopened : Sound { s with
          tempfiles := s.tempfiles ++ [[]]
          calls := s.calls.set i (.positioning content ⟨s.tempfiles.length, 0⟩) } := by
        refine h.set hcall rfl (h.oneWriter.take hcall rfl rfl ?_ ?_ ?_) ?_ ?_ ?_ ?_ ?_
        · exact List.Sublist.refl _
        · intro w hw
          rw [hpool] at hw
          cases hw
        · exact fun j w hj => (Nat.ne_of_lt (held_lt h hj)).symm
        · intro j file hfile
          refine ⟨[], ?_, fun _ => rfl⟩
          rw [List.getElem?_append_left (List.getElem?_eq_some_iff.mp hfile).1, hfile,
            List.append_nil]
        · exact fun w hw => Or.inl hw
        · exact ⟨[], List.getElem?_concat_length, rfl⟩
        · intro content rest w offset heq
          cases heq
        · intro content entry heq
          cases heq
      rw [hpool] at hopened
      cases answer with
      | error left =>
          simp only [Store.advance, hpool]
          exact h.fail hcall rfl hpool.symm (growsAt_refl _ _)
      | done =>
          simp only [Store.advance, hpool]
          exact hopened
      | wrote count =>
          simp only [Store.advance, hpool]
          exact hopened

/-- A call asks for the stream position, which is the end of the file. -/
theorem Sound.advance_positioning {content : Bytes} (h : Sound s)
    (hcall : s.calls[i]? = some (.positioning content writer)) (answer : IoAnswer) :
    Sound (s.step (.advance i answer)) := by
  rcases h.calls hcall with ⟨file, hfile, hposition⟩
  have hstarted : Sound { s with
      calls := s.calls.set i (.writing content content writer writer.position) } := by
    refine h.set hcall rfl (h.oneWriter.set hcall rfl rfl ?_) (growsAt_refl _ _)
      (fun w hw => Or.inl hw) ?_ ?_ ?_
    · exact fun w hw => ⟨w, hw, rfl⟩
    · exact ⟨file, [], hfile, hposition, rfl, hposition, rfl⟩
    · -- the references to the file are in it, so they end before the position
      intro content' rest w offset heq j content'' entry hj hclone
      cases heq
      rcases (h.calls hj).2 with ⟨file', hfile', hend, _⟩
      rw [hclone] at hfile'
      cases hfile.symm.trans hfile'
      omega
    · intro content entry heq
      cases heq
  simp only [step, hcall]
  cases answer with
  | error left =>
      simp only [Store.advance]
      exact h.fail hcall rfl rfl (growsAt_refl _ _)
  | done => exact hstarted
  | wrote count => exact hstarted

/-- A call that has written everything syncs the file, and returns its reference. -/
theorem Sound.advance_syncing {content : Bytes} {offset : Nat} (h : Sound s)
    (hcall : s.calls[i]? = some (.writing content [] writer offset)) (answer : IoAnswer) :
    Sound (s.step (.advance i answer)) := by
  rcases h.calls hcall with ⟨file, written, hfile, hposition, hcontent, hend, hslice⟩
  rw [List.append_nil] at hcontent
  subst hcontent
  -- the reference is to what the call has written, whether or not the writer goes back to the pool
  have hreturned : ∀ s' : Store, s'.tempfiles = s.tempfiles →
      s'.calls = s.calls.set i (.returned written ⟨writer.readClone, offset, written.length⟩) →
      OneWriter s' → (∀ w ∈ s'.writerPool, w ∈ s.writerPool ∨ w = writer) → Sound s' := by
    intro s' htempfiles hcalls hone hpool
    refine h.set hcall hcalls hone (htempfiles ▸ growsAt_refl _ _) ?_ ?_ ?_ ?_
    · intro w hw
      rcases hpool w hw with hold | rfl
      · exact Or.inl hold
      · exact Or.inr ⟨file, htempfiles ▸ hfile, hposition⟩
    · exact ⟨rfl, file, htempfiles ▸ hfile, Nat.le_of_eq hend, hslice⟩
    · intro content rest w offset heq
      cases heq
    · intro content entry heq
      cases heq
      exact ⟨[], writer, rfl, rfl⟩
  have hfinished : Sound
      { (if offset + written.length < maxPerTempfile then
          { s with writerPool := s.writerPool ++ [writer] } else s) with
        calls := s.calls.set i (.returned written ⟨writer.readClone, offset, written.length⟩) } := by
    split
    · refine hreturned _ rfl rfl (h.oneWriter.giveBack hcall rfl rfl rfl rfl) ?_
      intro w hw
      exact (List.mem_append.mp hw).imp_right List.mem_singleton.mp
    · refine hreturned _ rfl rfl (h.oneWriter.set hcall rfl rfl ?_) fun w hw => Or.inl hw
      intro w hw
      cases hw
  simp only [step, hcall]
  cases answer with
  | error left =>
      simp only [Store.advance]
      exact h.fail hcall rfl rfl (growsAt_refl _ _)
  | done => exact hfinished
  | wrote count => exact hfinished

/-- A call writes some of what is left, at the end of the file. -/
theorem Sound.advance_writing {content rest : Bytes} {b : UInt8} {offset : Nat} (h : Sound s)
    (hcall : s.calls[i]? = some (.writing content (b :: rest) writer offset)) (answer : IoAnswer) :
    Sound (s.step (.advance i answer)) := by
  rcases h.calls hcall with ⟨file, written, hfile, hposition, hcontent, hend, hslice⟩
  have hatEnd : AtEnd s.tempfiles writer := ⟨file, hfile, hposition⟩
  simp only [step, hcall]
  cases answer with
  | done =>
      rcases List.getElem?_eq_some_iff.mp hcall with ⟨hi, hself⟩
      have hsame : s.calls.set i (.writing content (b :: rest) writer offset) = s.calls :=
        hself ▸ List.set_getElem_self hi
      simp only [Store.advance, hsame]
      exact h
  -- a failed write may leave bytes behind, but past the end of all that is referred to
  | error left =>
      simp only [Store.advance]
      exact h.fail hcall rfl rfl (growsAt_writeThrough hatEnd left)
  | wrote count =>
      cases count with
      -- a write of no bytes is an error of write_all
      | zero =>
          simp only [Store.advance]
          exact h.fail hcall rfl rfl (growsAt_refl _ _)
      -- a partial write moves the offset, and the rest of the content stays to be written
      | succ count =>
          simp only [Store.advance]
          refine h.set hcall rfl (h.oneWriter.set hcall rfl rfl ?_)
            (growsAt_writeThrough hatEnd _) (fun w hw => Or.inl hw) ?_ ?_ ?_
          · intro w' hw'
            cases hw'
            exact ⟨writer, rfl, rfl⟩
          · refine ⟨file ++ (b :: rest).take (count + 1), written ++ (b :: rest).take (count + 1),
              getElem?_writeThrough hfile hposition _, ?_, ?_, ?_, slice_append_end hend hslice _⟩
            · rw [List.length_append, hposition]
            · rw [List.append_assoc, List.take_append_drop, hcontent]
            · rw [List.length_append, List.length_append, ← Nat.add_assoc, hend]
          · intro content' rest' w' offset' heq j content'' entry hj hclone
            cases heq
            exact h.before hcall hj hclone
          · intro content entry heq
            cases heq

/-- A call that has ended stays as it is. -/
theorem step_ended (hcall : s.calls[i]? = some call)
    (hended : call = .failed ∨ ∃ content entry, call = .returned content entry) (answer : IoAnswer) :
    s.step (.advance i answer) = s := by
  rcases List.getElem?_eq_some_iff.mp hcall with ⟨hi, hself⟩
  have hsame : s.calls.set i call = s.calls := hself ▸ List.set_getElem_self hi
  rcases hended with rfl | ⟨content, entry, rfl⟩
  · simp only [step, hcall, Store.advance, hsame]
  · simp only [step, hcall, Store.advance, hsame]

theorem Sound.step_write (h : Sound s) (content : Bytes) : Sound (s.step (.write content)) := by
  -- the new call has nothing yet
  have hold : ∀ {j : Nat} {call}, (s.calls ++ [.taking content])[j]? = some call →
      s.calls[j]? = some call ∨ call = .taking content := by
    intro j call hj
    rw [List.getElem?_append] at hj
    split at hj
    · exact Or.inl hj
    · rw [List.getElem?_singleton] at hj
      split at hj
      · exact Or.inr (Option.some.inj hj).symm
      · cases hj
  have hheld : ∀ {j : Nat} {w}, (s.step (.write content)).held j = some w → s.held j = some w := by
    intro j w hw
    rcases Option.bind_eq_some_iff.mp hw with ⟨call, hcall, hwriter⟩
    rcases hold hcall with hcall | rfl
    · exact (held_of_call hcall).trans hwriter
    · cases hwriter
  refine ⟨⟨h.oneWriter.pool, fun hj hk => h.oneWriter.calls (hheld hj) (hheld hk),
    fun hj => h.oneWriter.apart (hheld hj)⟩, h.pooled, ?_, ?_, ?_⟩
  · intro j call hj
    rcases hold hj with hj | rfl
    · exact h.calls hj
    · trivial
  · intro j k content' rest w offset content'' entry hj hk
    rcases hold hj with hj | heq
    · rcases hold hk with hk | heq
      · exact h.before hj hk
      · cases heq
    · cases heq
  · intro j k content' entry content'' entry' hjk hj hk
    rcases hold hj with hj | heq
    · rcases hold hk with hk | heq
      · exact h.apart hjk hj hk
      · cases heq
    · cases heq

theorem Sound.step (h : Sound s) (e : StoreEvent) : Sound (s.step e) := by
  cases e with
  | write content => exact h.step_write content
  | advance i answer =>
      cases hcall : s.calls[i]? with
      | none =>
          simp only [Store.step, hcall]
          exact h
      | some call =>
          cases call with
          | taking content => exact h.advance_taking hcall answer
          | positioning content writer => exact h.advance_positioning hcall answer
          | writing content rest writer offset =>
              cases rest with
              | nil => exact h.advance_syncing hcall answer
              | cons b rest => exact h.advance_writing hcall answer
          | returned content entry =>
              rw [step_ended hcall (Or.inr ⟨content, entry, rfl⟩)]
              exact h
          | failed =>
              rw [step_ended hcall (Or.inl rfl)]
              exact h

theorem sound_default : Sound default where
  oneWriter := ⟨List.nodup_nil, fun hj _ _ => (by cases hj), fun hj => (by cases hj)⟩
  pooled := fun w hw => by cases hw
  calls := fun hj => by cases hj
  before := fun hj => by cases hj
  apart := fun _ hj => by cases hj

theorem sound_run (events : List StoreEvent) : Sound (run events) := by
  unfold run
  exact List.foldlRecOn events step sound_default fun _ h e _ => h.step e

/-- A reference that has been returned stays with its call. -/
theorem step_returned {content : Bytes} {entry : StoreEntryRef}
    (hcall : s.calls[i]? = some (.returned content entry)) (e : StoreEvent) :
    (s.step e).calls[i]? = some (.returned content entry) := by
  cases e with
  | write content' =>
      simp only [step]
      rw [List.getElem?_append_left (List.getElem?_eq_some_iff.mp hcall).1]
      exact hcall
  | advance j answer =>
      by_cases hij : j = i
      · subst hij
        rw [step_ended hcall (Or.inr ⟨content, entry, rfl⟩)]
        exact hcall
      · simp only [step]
        split
        · exact hcall
        · simp only [List.getElem?_set_ne hij]
          exact hcall

theorem run_returned {content : Bytes} {entry : StoreEntryRef} {events : List StoreEvent}
    (hcall : (run events).calls[i]? = some (.returned content entry)) (later : List StoreEvent) :
    (run (events ++ later)).calls[i]? = some (.returned content entry) := by
  unfold run at hcall ⊢
  rw [List.foldl_append]
  exact List.foldlRecOn (motive := fun s : Store => s.calls[i]? = some (.returned content entry))
    later step hcall fun _ h e _ => step_returned h e

/-! ## Reading back -/

theorem Sound.read (h : Sound s) {content : Bytes} {entry : StoreEntryRef}
    (hcall : s.calls[i]? = some (.returned content entry)) (buf : Bytes) :
    entry.read s buf = some (buf ++ content) := by
  rcases h.calls hcall with ⟨_, file, hfile, hend, hslice⟩
  simp only [StoreEntryRef.read, hfile]
  rw [if_pos (length_slice hend), hslice]

/-- However calls of `write` run together, and whatever the operating system answers: a reference that a
call has returned reads the content of the call from then on, and the bytes of two references to one file
are apart. -/
theorem write_reads_back (events later : List StoreEvent) (i : Nat) (content : Bytes)
    (entry : StoreEntryRef) (hcall : (run events).calls[i]? = some (.returned content entry)) :
    (∀ buf, entry.read (run (events ++ later)) buf = some (buf ++ content)) ∧
      (∀ (ParsedEntry : Type) (tryFromSlice : Bytes → Option ParsedEntry),
        entry.parse tryFromSlice (run (events ++ later)) = tryFromSlice content) ∧
      ∀ (j : Nat) content' entry', j ≠ i →
        (run (events ++ later)).calls[j]? = some (.returned content' entry') →
        entry'.readClone = entry.readClone → entry'.Apart entry := by
  have hsound := sound_run (events ++ later)
  have hlater := run_returned hcall later
  refine ⟨fun buf => hsound.read hlater buf, ?_, ?_⟩
  · intro ParsedEntry tryFromSlice
    unfold StoreEntryRef.parse
    rw [hsound.read hlater, List.nil_append]
    rfl
  · exact fun j content' entry' hne hj hclone => hsound.apart hne hj hlater hclone

/-- Two calls at the same time: the first opens a file and writes a part before an error, the second
opens another file and returns, and a third takes up the writer of the second. -/
def dropAndReuse : List StoreEvent :=
  [.write [1, 2, 3], .write [4, 5], .advance 0 .done, .advance 1 .done, .advance 0 .done,
    .advance 1 .done, .advance 0 (.wrote 1), .advance 1 (.wrote 2), .advance 0 (.error [2]),
    .advance 1 .done, .write [6], .advance 2 .done, .advance 2 .done, .advance 2 (.wrote 1),
    .advance 2 .done]

theorem write_reads_back_dropAndReuse :
    (⟨1, 2, 1⟩ : StoreEntryRef).read (run dropAndReuse) [] = some [6] ∧
      (⟨1, 0, 2⟩ : StoreEntryRef).Apart ⟨1, 2, 1⟩ := by
  have hback := write_reads_back dropAndReuse [] 2 [6] ⟨1, 2, 1⟩ (by decide)
  rw [List.append_nil] at hback
  exact ⟨hback.1 [], hback.2.2 1 [4, 5] ⟨1, 0, 2⟩ (by decide) (by decide) rfl⟩

end Store

end Bootstrap
end Kitsune2
