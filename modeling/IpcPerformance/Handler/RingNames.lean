import IpcPerformance.Handler.SharedFile
import IpcPerformance.Handler.SharedMemory
import IpcPerformance.Library.Isolation

/-! # The names of the ring handlers

Pairs of a server and a client that share a kernel. A pair has a name, and the kernel knows its memory
or file by it; the two semaphores it knows by what follows the last slash. Semaphores and POSIX memories
are entries of one directory, where the name of a semaphore begins with `sem.`. `open` and `close` create,
look up and remove what these names stand for, everything else goes through what has been opened.

* `RingPair.call` — a call of one of the two, on what the names of its pair stand for.
* `RingName.isolated_iff` — pairs with memories and files of their own are isolated from each other
  exactly when no two names have the same last part and nobody's memory or file is the semaphore of
  another pair. -/

namespace IpcPerformance

/-! ## What a name stands for -/

/-- The objects of one name: an object that is removed stays what it is for those who have it open. -/
structure Entry (α : Type) where
  /-- The object the name stands for. -/
  linked : Option ℕ
  /-- Number of objects created. -/
  created : ℕ
  /-- The objects. -/
  object : ℕ → α

namespace Entry

variable {α : Type}

/-- Nothing has ever had the name. -/
def absent (a : α) : Entry α := ⟨none, 0, fun _ => a⟩

/-- The name is removed. -/
def unlink (e : Entry α) : Entry α := { e with linked := none }

/-- The object of the name; without one it is created. -/
def create (e : Entry α) (a : α) : ℕ × Entry α :=
  match e.linked with
  | some i => (i, e)
  | none => (e.created, ⟨some e.created, e.created + 1, Function.update e.object e.created a⟩)

/-- Another value of an object. -/
def set (e : Entry α) (i : ℕ) (a : α) : Entry α := { e with object := Function.update e.object i a }

/-- After `create` the name stands for the object. -/
theorem linked_create (e : Entry α) (a : α) : (e.create a).2.linked = some (e.create a).1 := by
  unfold create
  split
  · rename_i h
    exact h
  · rfl

end Entry

/-! ## Names -/

/-- The three ring handlers: `SharedMemory` of a POSIX object, `SharedMemory` of a file, `SharedFile`. -/
inductive RingKind
  | memory
  | mapped
  | file
  deriving DecidableEq

/-- What a server and a client of it are made with. -/
structure RingName where
  /-- Which handlers they are. -/
  kind : RingKind
  /-- `name_` or `path_`. -/
  name : List Char
  deriving DecidableEq

/-- The entry of a directory that an object has. -/
inductive Node
  /-- In the directory of the POSIX objects. -/
  | shared (name : List Char)
  /-- Elsewhere. -/
  | file (path : List Char)
  deriving DecidableEq

/-- What a kernel object holds: a semaphore its count, a memory or file its bytes. -/
structure RingObject where
  /-- The count. -/
  count : ℕ
  /-- The bytes. -/
  contents : FileContents

namespace RingName

/-- `name_.substr(name_.rfind('/') + 1)`. -/
def lastPart (name : List Char) : List Char := name.rtakeWhile (· ≠ '/')

/-- The name of a semaphore: the last part, `_sem`, and a letter. -/
def semaphore (n : RingName) (letter : Char) : List Char :=
  lastPart n.name ++ ['_', 's', 'e', 'm'] ++ [letter]

/-- What `sem_open` opens for it. -/
def semaphoreNode (n : RingName) (letter : Char) : Node :=
  .shared (['s', 'e', 'm', '.'] ++ n.semaphore letter)

end RingName

/-- What the system makes of names. Some it refuses: those with another slash behind the first ones, those
in directories that do not exist, those that are too long. -/
structure NameSpace where
  /-- Where a path leads. -/
  locate : List Char → Node
  /-- Whether it is the name of an object that can be there. -/
  takes : Node → Bool
  /-- The entry has the name at the end of the path. -/
  locate_shared {path name : List Char} (h : locate path = .shared name) :
    name = RingName.lastPart path
  /-- The names of two semaphores are equally long. -/
  takes_semaphore (n : RingName) :
    takes (n.semaphoreNode 'r') = takes (n.semaphoreNode 'w')

/-- The name of an entry. -/
def isEntryName (name : List Char) : Bool :=
  name ≠ [] && name ≠ ['.'] && name ≠ ['.', '.'] && '/' ∉ name

/-- Linux with names of any length, and with paths that lead to the directory of the POSIX objects only if
they begin with its own. -/
def NameSpace.linux : NameSpace where
  locate path :=
    if path = ['/', 'd', 'e', 'v', '/', 's', 'h', 'm', '/'] ++ RingName.lastPart path then
      .shared (RingName.lastPart path)
    else .file path
  takes
    | .shared name => isEntryName name
    | .file path => isEntryName (RingName.lastPart path)
  locate_shared := by
    intro path name h
    split at h
    · exact (Node.shared.inj h).symm
    · cases h
  takes_semaphore := by
    intro n
    simp [RingName.semaphoreNode, RingName.semaphore, isEntryName]

/-- Which names of a pair the system takes. -/
structure TakenNames where
  /-- That of the memory or file. -/
  backing : Bool
  /-- Those of the semaphores. -/
  semaphores : Bool

namespace RingName

/-- What the handlers open for the slots; slashes in front of a POSIX name do not count. -/
def backing (space : NameSpace) (n : RingName) : Node :=
  match n.kind with
  | .memory => .shared (n.name.dropWhile (· = '/'))
  | .mapped => space.locate n.name
  | .file => space.locate n.name

/-- Which of its names the system takes. -/
def taken (space : NameSpace) (n : RingName) : TakenNames :=
  ⟨space.takes (n.backing space), space.takes (n.semaphoreNode 'r')⟩

/-- `create_handler`, for the three ring handlers. -/
def createHandler (kind : RingKind) (path : List Char) : RingName :=
  match kind with
  | .memory => ⟨.memory, path⟩
  | .mapped => ⟨.mapped, ['/', 't', 'm', 'p', '/'] ++ path⟩
  | .file => ⟨.file, ['/', 't', 'm', 'p', '/'] ++ path⟩

end RingName

/-! ## Calls -/

/-- The two handlers of a pair. -/
inductive RingRole
  | server
  | client
  deriving DecidableEq

/-- A handler, and the objects it has opened last. -/
structure RingPeer where
  /-- The handler. -/
  handler : RingHandler
  /-- Its memory or file. -/
  backingAt : ℕ
  /-- `reader_`. -/
  readerAt : ℕ
  /-- `writer_`. -/
  writerAt : ℕ

/-- The calls of a handler. -/
inductive RingCall
  | openHandler
  | closeHandler
  | awaitData
  | write (o : DataObject) (timestamp : Int64)
  | read

/-- What a call returns. -/
inductive RingResult
  | flag (success : Bool)
  /-- Nothing: the call of `write` blocks, and is as if it had not begun. -/
  | blocked
  | message (outcome : Except Fault ReadResult)

/-- What a call returns, and what the handler sees of its semaphores afterwards. -/
structure RingReply where
  /-- The result. -/
  result : RingResult
  /-- The counts of `reader_` and `writer_`, when it is open. -/
  counts : Option (ℕ × ℕ)

/-- A server, a client, and what their names stand for. -/
structure RingPair where
  /-- The semaphore that counts messages. -/
  reader : Entry RingObject
  /-- The semaphore that counts slots. -/
  writer : Entry RingObject
  /-- The memory or the file. -/
  backing : Entry RingObject
  /-- The two handlers. -/
  peers : RingRole → RingPeer

namespace RingPair

/-- `sem_open` of a server, after `sem_unlink`. -/
def createSemaphore (semaphore : Entry RingObject) (count : ℕ) : ℕ × Entry RingObject :=
  semaphore.unlink.create ⟨count, .empty⟩

/-- The server creates the memory or the file: `SharedMemory` removes what has the name before,
`SharedFile` empties it. -/
def createBacking (kind : RingKind) (backing : Entry RingObject) : ℕ × Entry RingObject :=
  match kind with
  | .memory => backing.unlink.create ⟨0, ⟨fun _ => 0, totalSize⟩⟩
  | .mapped => backing.unlink.create ⟨0, ⟨fun _ => 0, totalSize⟩⟩
  | .file =>
      let (i, backing) := backing.create ⟨0, .empty⟩
      (i, backing.set i { backing.object i with contents := .empty })

/-- `open`: a server creates its semaphores anew, a client needs all three objects. -/
def openHandler (kind : RingKind) (taken : TakenNames) (role : RingRole) (s : RingPair) :
    Bool × RingPair :=
  let self := s.peers role
  if self.handler.isOpen then (true, s)
  else if !taken.backing then (false, s)
  else
    match role with
    | .server =>
        let (backingAt, backing) := createBacking kind s.backing
        -- `sem_open` fails, and `close` removes the memory or file
        if !taken.semaphores then (false, { s with backing := backing.unlink })
        else
          let (readerAt, reader) := createSemaphore s.reader 0
          let (writerAt, writer) := createSemaphore s.writer totalAmount
          let self : RingPeer :=
            ⟨{ self.handler with isOpen := true }, backingAt, readerAt, writerAt⟩
          (true, ⟨reader, writer, backing, Function.update s.peers .server self⟩)
    | .client =>
        if !taken.semaphores then (false, s)
        else
          match s.backing.linked, s.reader.linked, s.writer.linked with
          | some backingAt, some readerAt, some writerAt =>
              let self : RingPeer :=
                ⟨{ self.handler with isOpen := true }, backingAt, readerAt, writerAt⟩
              (true, { s with peers := Function.update s.peers .client self })
          | _, _, _ => (false, s)

/-- `close`: a server removes the names. -/
def closeHandler (role : RingRole) (s : RingPair) : Bool × RingPair :=
  let self := s.peers role
  if self.handler.isOpen then
    let peers := Function.update s.peers role
      { self with handler := { self.handler with isOpen := false } }
    match role with
    | .server => (true, ⟨s.reader.unlink, s.writer.unlink, s.backing.unlink, peers⟩)
    | .client => (true, { s with peers })
  else (false, s)

/-- `await_data`: it waits for a message, but not for ever, and gives the semaphore back. -/
def awaitData (role : RingRole) (s : RingPair) : Bool :=
  let self := s.peers role
  self.handler.isOpen && 0 < (s.reader.object self.readerAt).count

/-- What a handler has open. -/
def segment (role : RingRole) (s : RingPair) : Segment FileContents :=
  let self := s.peers role
  ⟨(s.backing.object self.backingAt).contents, (s.reader.object self.readerAt).count,
    (s.writer.object self.writerAt).count⟩

/-- After a call that has changed the handler and what it has open. -/
def update (role : RingRole) (s : RingPair) (handler : RingHandler) (segment : Segment FileContents) :
    RingPair :=
  let self := s.peers role
  ⟨s.reader.set self.readerAt { s.reader.object self.readerAt with count := segment.reader },
    s.writer.set self.writerAt { s.writer.object self.writerAt with count := segment.writer },
    s.backing.set self.backingAt { s.backing.object self.backingAt with contents := segment.store },
    Function.update s.peers role { self with handler }⟩

/-- `SharedMemory::write` or `SharedFile::write`, in which nothing fails. -/
def writeSegment (kind : RingKind) (self : RingHandler) (segment : Segment FileContents)
    (o : DataObject) (timestamp : Int64) : Option (Bool × RingHandler × Segment FileContents) :=
  match kind with
  | .file => SharedFile.write self segment o timestamp .success
  | _ =>
      match SharedMemory.write self ⟨segment.store.bytes, segment.reader, segment.writer⟩ o timestamp with
      | none => none
      | some (result, self, memory) =>
          some (result, self, ⟨⟨memory.store, segment.store.size⟩, memory.reader, memory.writer⟩)

/-- `SharedMemory::read` or `SharedFile::read`, in which nothing fails. -/
def readSegment (kind : RingKind) (self : RingHandler) (segment : Segment FileContents) :
    Except Fault ReadResult × RingHandler × Segment FileContents :=
  match kind with
  | .file => SharedFile.read self segment .success
  | _ =>
      let (outcome, self, memory) :=
        SharedMemory.read self ⟨segment.store.bytes, segment.reader, segment.writer⟩
      (outcome, self, ⟨⟨memory.store, segment.store.size⟩, memory.reader, memory.writer⟩)

/-- A call of one of the handlers: its result and the pair after it. -/
def result (kind : RingKind) (taken : TakenNames) (role : RingRole) (s : RingPair) :
    RingCall → RingResult × RingPair
  | .openHandler =>
      let (success, s) := s.openHandler kind taken role
      (.flag success, s)
  | .closeHandler =>
      let (success, s) := s.closeHandler role
      (.flag success, s)
  | .awaitData => (.flag (s.awaitData role), s)
  | .write o timestamp =>
      match writeSegment kind (s.peers role).handler (s.segment role) o timestamp with
      | none => (.blocked, s)
      | some (success, handler, segment) => (.flag success, s.update role handler segment)
  | .read =>
      let (outcome, handler, segment) :=
        readSegment kind (s.peers role).handler (s.segment role)
      (.message outcome, s.update role handler segment)

/-- The counts a handler sees. -/
def counts (role : RingRole) (s : RingPair) : Option (ℕ × ℕ) :=
  if (s.peers role).handler.isOpen then some ((s.segment role).reader, (s.segment role).writer)
  else none

/-- A call and its reply. -/
def call (kind : RingKind) (taken : TakenNames) : Responder (RingRole × RingCall) RingReply RingPair :=
  fun s i =>
    let (result, s) := s.result kind taken i.1 i.2
    (⟨result, s.counts i.1⟩, s)

end RingPair

/-! ## Pairs that share a kernel -/

/-- What the kernel knows by a name, and the handlers of all pairs `P`. -/
structure RingWorld (P : Type) where
  /-- The objects of the names. -/
  nodes : Node → Entry RingObject
  /-- The handlers. -/
  peers : P → RingRole → RingPeer

namespace RingWorld

variable {P : Type} [DecidableEq P]

/-- What the calls of a pair are about: the entries of its names, and its handlers. -/
def access (space : NameSpace) (names : P → RingName) : Access P (RingWorld P) RingPair where
  get p w :=
    ⟨w.nodes ((names p).semaphoreNode 'r'), w.nodes ((names p).semaphoreNode 'w'),
      w.nodes ((names p).backing space), w.peers p⟩
  put p s w :=
    ⟨Function.update (Function.update (Function.update w.nodes ((names p).backing space) s.backing)
        ((names p).semaphoreNode 'r') s.reader) ((names p).semaphoreNode 'w') s.writer,
      Function.update w.peers p s.peers⟩

/-- The calls of a pair. -/
def call (space : NameSpace) (names : P → RingName) (p : P) :
    Responder (RingRole × RingCall) RingReply RingPair :=
  RingPair.call (names p).kind ((names p).taken space)

/-- The calls of all pairs, in any order. -/
def step (space : NameSpace) (names : P → RingName) :
    Responder (P × RingRole × RingCall) RingReply (RingWorld P) :=
  (access space names).responder (call space names)

/-- New handlers, and nothing of any name. -/
def initial : RingWorld P where
  nodes _ := .absent ⟨0, .empty⟩
  peers _ _ := ⟨⟨false, 0, 0, fun _ => 0⟩, 0, 0, 0⟩

end RingWorld

namespace RingName

variable {P : Type} [DecidableEq P]

/-- The system takes all names of the pair. -/
def Usable (space : NameSpace) (n : RingName) : Prop :=
  (n.taken space).backing = true ∧ (n.taken space).semaphores = true

/-- The pairs are isolated: each gets the replies it would get alone, whatever calls the others make in
between, and no two pairs have a semaphore of the same name. -/
structure Isolated (space : NameSpace) (names : P → RingName) : Prop where
  replies (p : P) : (RingWorld.step space names).Isolated (fun i => i.1 = p) RingWorld.initial
  semaphores {p q : P} (h : p ≠ q) (hp : (names p).Usable space) (hq : (names q).Usable space)
    (letter letter' : Char) : (names p).semaphore letter ≠ (names q).semaphore letter'

/-- Nothing of the first pair is removed by the server of the second. -/
structure Apart (space : NameSpace) (n n' : RingName) : Prop where
  lastPart : lastPart n.name ≠ lastPart n'.name
  reader : n'.backing space ≠ n.semaphoreNode 'r'
  writer : n'.backing space ≠ n.semaphoreNode 'w'

/-- The two semaphores of a pair are different, and those of pairs with different last parts are. -/
theorem semaphore_eq_iff (n n' : RingName) (letter letter' : Char) :
    n.semaphore letter = n'.semaphore letter' ↔
      lastPart n.name = lastPart n'.name ∧ letter = letter' := by
  constructor
  · intro h
    obtain ⟨hfront, hletter⟩ := List.append_inj' h rfl
    exact ⟨List.append_cancel_right hfront, List.singleton_inj.mp hletter⟩
  · rintro ⟨hlast, rfl⟩
    rw [semaphore, semaphore, hlast]

/-- So are their entries. -/
theorem semaphoreNode_eq_iff (n n' : RingName) (letter letter' : Char) :
    n.semaphoreNode letter = n'.semaphoreNode letter' ↔
      lastPart n.name = lastPart n'.name ∧ letter = letter' := by
  rw [semaphoreNode, semaphoreNode, Node.shared.injEq, List.append_cancel_left_eq, semaphore_eq_iff]

/-- The letters of the two semaphores. -/
theorem semaphoreNode_ne (n n' : RingName) : n.semaphoreNode 'r' ≠ n'.semaphoreNode 'w' := by
  intro h
  exact absurd ((semaphoreNode_eq_iff n n' 'r' 'w').mp h).2 (by decide)

/-- What is in front of a slash does not matter. -/
theorem lastPart_append_slash (front path : List Char) :
    lastPart (front ++ '/' :: path) = lastPart path := by
  have hslash : ('/' :: front.reverse).takeWhile (fun c => decide (c ≠ '/')) = [] := rfl
  unfold lastPart List.rtakeWhile
  rw [List.reverse_append, List.reverse_cons, List.append_assoc, List.singleton_append,
    List.takeWhile_append, hslash, List.append_nil]
  split
  · rename_i hall
    rw [List.takeWhile_eq_self_iff.mpr]
    exact List.takeWhile_eq_self_iff.mp
      ((List.takeWhile_prefix _).eq_of_length hall)
  · rfl

/-- A name without a slash is its own last part. -/
theorem lastPart_of_not_mem {name : List Char} (h : '/' ∉ name) : lastPart name = name := by
  refine List.rtakeWhile_eq_self_iff.mpr fun c hc => ?_
  exact decide_eq_true (fun heq => h (heq ▸ hc))

/-- There is no slash in a last part. -/
theorem not_mem_lastPart (name : List Char) : '/' ∉ lastPart name := by
  intro h
  have hne := List.mem_rtakeWhile_imp (p := fun c => decide (c ≠ '/')) h
  exact of_decide_eq_true hne rfl

/-- Slashes in front of a name do not change its last part. -/
theorem lastPart_dropWhile (name : List Char) :
    lastPart (name.dropWhile (· = '/')) = lastPart name := by
  induction name with
  | nil => rfl
  | cons c name ih =>
      rw [List.dropWhile_cons]
      split
      · rename_i hc
        rw [ih, of_decide_eq_true hc]
        exact (lastPart_append_slash [] name).symm
      · rfl

/-- The name of an entry that a handler opens for its slots, unless there is another slash in it. -/
theorem eq_lastPart_of_backing {space : NameSpace} {n : RingName} {name : List Char}
    (h : n.backing space = .shared name) (hslash : '/' ∉ name) : name = lastPart n.name := by
  unfold backing at h
  split at h
  · obtain rfl := Node.shared.inj h
    rw [← lastPart_dropWhile n.name, lastPart_of_not_mem hslash]
  · exact space.locate_shared h
  · exact space.locate_shared h

/-- A handler does not open its own semaphore for the slots: the name is longer. -/
theorem backing_ne_semaphoreNode (space : NameSpace) (n : RingName) (letter : Char)
    (hletter : letter ≠ '/') : n.backing space ≠ n.semaphoreNode letter := by
  intro h
  have hslash : '/' ∉ ['s', 'e', 'm', '.'] ++ n.semaphore letter := by
    simp [semaphore, not_mem_lastPart, hletter.symm]
  have hlength := congrArg List.length (eq_lastPart_of_backing h hslash)
  simp only [semaphore, List.length_append, List.length_cons, List.length_nil] at hlength
  omega

/-- A pair finds what its calls have left. -/
theorem get_put (space : NameSpace) (names : P → RingName) (p : P) (s : RingPair) (w : RingWorld P) :
    (RingWorld.access space names).get p ((RingWorld.access space names).put p s w) = s := by
  have hreader := backing_ne_semaphoreNode space (names p) 'r' (by decide)
  have hwriter := backing_ne_semaphoreNode space (names p) 'w' (by decide)
  simp only [RingWorld.access, Function.update_self,
    Function.update_of_ne (semaphoreNode_ne (names p) (names p)), Function.update_of_ne hreader,
    Function.update_of_ne hwriter]

/-- If the calls of a pair change nothing, everything is as it was. -/
theorem put_get (space : NameSpace) (names : P → RingName) (p : P) (w : RingWorld P) :
    (RingWorld.access space names).put p ((RingWorld.access space names).get p w) w = w := by
  simp only [RingWorld.access, Function.update_eq_self]

/-- The handlers of a pair after the call of another one. -/
theorem peers_step_of_ne (space : NameSpace) (names : P → RingName) (w : RingWorld P) {p : P}
    {i : P × RingRole × RingCall} (hne : i.1 ≠ p) :
    (RingWorld.step space names w i).2.peers p = w.peers p :=
  Function.update_of_ne hne.symm _ _

/-- A pair after its own call. -/
theorem get_step (space : NameSpace) (names : P → RingName) (w : RingWorld P) (p : P) (role : RingRole)
    (c : RingCall) :
    (RingWorld.access space names).get p (RingWorld.step space names w (p, role, c)).2 =
      (RingPair.result (names p).kind ((names p).taken space) role
        ((RingWorld.access space names).get p w) c).2 :=
  get_put space names p _ w

/-! ## Names that are refused -/

/-- What a closed handler returns whose names are refused. -/
def refusal : RingCall → RingResult
  | .openHandler => .flag false
  | .closeHandler => .flag false
  | .awaitData => .flag false
  | .write _ _ => .flag false
  | .read => .message (.ok (.error .connectionClosed))

/-- Putting back what a handler has open changes nothing. -/
theorem update_segment (role : RingRole) (s : RingPair) :
    s.update role (s.peers role).handler (s.segment role) = s := by
  simp only [RingPair.update, RingPair.segment, Entry.set, Function.update_eq_self]

/-- A closed handler does not write. -/
theorem writeSegment_of_closed (kind : RingKind) {self : RingHandler} (hclosed : self.isOpen = false)
    (segment : Segment FileContents) (o : DataObject) (timestamp : Int64) :
    RingPair.writeSegment kind self segment o timestamp = some (false, self, segment) := by
  cases kind with
  | file => exact SharedFile.calls.write_of_closed hclosed segment o timestamp
  | memory =>
      rw [RingPair.writeSegment, SharedMemory.write, hclosed, if_neg Bool.false_ne_true]
      nofun
  | mapped =>
      rw [RingPair.writeSegment, SharedMemory.write, hclosed, if_neg Bool.false_ne_true]
      nofun

/-- Nor does it read. -/
theorem readSegment_of_closed (kind : RingKind) {self : RingHandler} (hclosed : self.isOpen = false)
    (segment : Segment FileContents) :
    RingPair.readSegment kind self segment = (.ok (.error .connectionClosed), self, segment) := by
  cases kind with
  | file => exact SharedFile.calls.read_of_closed hclosed segment
  | memory =>
      rw [RingPair.readSegment, SharedMemory.read, hclosed, if_neg Bool.false_ne_true]
      nofun
  | mapped =>
      rw [RingPair.readSegment, SharedMemory.read, hclosed, if_neg Bool.false_ne_true]
      nofun

/-- A call of a pair whose names are refused: at most the memory or file is removed. -/
theorem result_of_refused (kind : RingKind) {taken : TakenNames}
    (htaken : ¬ (taken.backing = true ∧ taken.semaphores = true)) {role : RingRole} {s : RingPair}
    (hclosed : (s.peers role).handler.isOpen = false) (c : RingCall) :
    ∃ backing, s.result kind taken role c = (refusal c, { s with backing }) ∧
      (taken.backing = false → backing = s.backing) := by
  cases c with
  | openHandler =>
      by_cases hbacking : taken.backing = true
      · have hsemaphores : taken.semaphores = false :=
          Bool.eq_false_iff.mpr fun h => htaken ⟨hbacking, h⟩
        cases role with
        | server =>
            refine ⟨(RingPair.createBacking kind s.backing).2.unlink, ?_, ?_⟩
            · simp only [RingPair.result, RingPair.openHandler, hclosed, hbacking, hsemaphores,
                Bool.false_eq_true, if_false, Bool.not_true, Bool.not_false, if_true, refusal]
            · intro h
              exact absurd (h.symm.trans hbacking) Bool.false_ne_true
        | client =>
            refine ⟨s.backing, ?_, fun _ => rfl⟩
            simp only [RingPair.result, RingPair.openHandler, hclosed, hbacking, hsemaphores,
              Bool.false_eq_true, if_false, Bool.not_true, Bool.not_false, if_true, refusal]
      · refine ⟨s.backing, ?_, fun _ => rfl⟩
        simp only [RingPair.result, RingPair.openHandler, hclosed, Bool.eq_false_iff.mpr hbacking,
          Bool.false_eq_true, if_false, Bool.not_false, if_true, refusal]
  | closeHandler =>
      refine ⟨s.backing, ?_, fun _ => rfl⟩
      simp only [RingPair.result, RingPair.closeHandler, hclosed, Bool.false_eq_true, if_false, refusal]
  | awaitData =>
      refine ⟨s.backing, ?_, fun _ => rfl⟩
      simp only [RingPair.result, RingPair.awaitData, hclosed, Bool.false_and, refusal]
  | write o timestamp =>
      refine ⟨s.backing, ?_, fun _ => rfl⟩
      simp only [RingPair.result, writeSegment_of_closed kind hclosed, update_segment, refusal]
  | read =>
      refine ⟨s.backing, ?_, fun _ => rfl⟩
      simp only [RingPair.result, readSegment_of_closed kind hclosed, update_segment, refusal]

/-- Its reply. -/
theorem call_of_refused (kind : RingKind) {taken : TakenNames}
    (htaken : ¬ (taken.backing = true ∧ taken.semaphores = true)) {s : RingPair}
    {i : RingRole × RingCall} (hclosed : (s.peers i.1).handler.isOpen = false) :
    (RingPair.call kind taken s i).1 = ⟨refusal i.2, none⟩ ∧
      (RingPair.call kind taken s i).2.peers = s.peers := by
  obtain ⟨backing, hresult, -⟩ := result_of_refused kind htaken hclosed i.2
  simp only [RingPair.call, hresult, RingPair.counts, hclosed, Bool.false_eq_true, if_false, and_self]

/-- Pairs whose names are refused are closed. -/
def Dormant (space : NameSpace) (names : P → RingName) (w : RingWorld P) : Prop :=
  ∀ p, ¬ (names p).Usable space → ∀ role, (w.peers p role).handler.isOpen = false

omit [DecidableEq P] in
/-- At first everything is closed. -/
theorem dormant_initial (space : NameSpace) (names : P → RingName) :
    Dormant space names RingWorld.initial := fun _ _ _ => rfl

/-- And they stay so. -/
theorem Dormant.step {space : NameSpace} {names : P → RingName} {w : RingWorld P}
    (h : Dormant space names w) (i : P × RingRole × RingCall) :
    Dormant space names (RingWorld.step space names w i).2 := by
  intro p hp
  by_cases hne : i.1 = p
  · subst hne
    have hpeers := (call_of_refused (names i.1).kind hp
      (s := (RingWorld.access space names).get i.1 w) (h i.1 hp i.2.1)).2
    have hself : (RingWorld.step space names w i).2.peers i.1 = w.peers i.1 :=
      (Function.update_self _ _ _).trans hpeers
    rw [hself]
    exact h i.1 hp
  · rw [peers_step_of_ne space names w hne]
    exact h p hp

/-- If the name of its memory or file is refused, the calls of a pair change nothing. -/
theorem step_of_refused {space : NameSpace} {names : P → RingName} {w : RingWorld P}
    (h : Dormant space names w) {i : P × RingRole × RingCall}
    (hrefused : space.takes ((names i.1).backing space) = false) :
    (RingWorld.step space names w i).2 = w := by
  have hp : ¬ (names i.1).Usable space := fun husable =>
    Bool.false_ne_true (hrefused.symm.trans husable.1)
  obtain ⟨backing, hresult, hkept⟩ := result_of_refused (names i.1).kind hp
    (s := (RingWorld.access space names).get i.1 w) (h i.1 hp i.2.1) i.2.2
  have hpair : (RingPair.result (names i.1).kind ((names i.1).taken space) i.2.1
      ((RingWorld.access space names).get i.1 w) i.2.2).2 = (RingWorld.access space names).get i.1 w := by
    rw [hresult, hkept hrefused]
  change (RingWorld.access space names).put i.1 _ w = w
  refine (congrArg (fun s => (RingWorld.access space names).put i.1 s w) hpair).trans ?_
  exact put_get space names i.1 w

/-- A pair whose names are refused is isolated. -/
theorem isolated_of_refused {space : NameSpace} {names : P → RingName} {p : P}
    (hp : ¬ (names p).Usable space) :
    (RingWorld.step space names).Isolated (fun i => i.1 = p) RingWorld.initial := by
  have hunwinding : (RingWorld.step space names).Unwinding (fun i => i.1 = p)
      (fun w w' => w.peers p = w'.peers p ∧ ∀ role, (w.peers p role).handler.isOpen = false) := by
    refine ⟨?_, ?_⟩
    · rintro w w' ⟨q, i⟩ ⟨hpeers, hclosed⟩ hq
      obtain rfl := of_decide_eq_true hq
      obtain ⟨hreply, hkept⟩ := call_of_refused (names q).kind hp
        (s := (RingWorld.access space names).get q w) (i := i) (hclosed i.1)
      obtain ⟨hreply', hkept'⟩ := call_of_refused (names q).kind hp
        (s := (RingWorld.access space names).get q w') (i := i)
        ((congrArg (fun peers => (peers i.1).handler.isOpen) hpeers).symm.trans (hclosed i.1))
      have hself : (RingWorld.step space names w (q, i)).2.peers q = w.peers q :=
        (Function.update_self _ _ _).trans hkept
      have hself' : (RingWorld.step space names w' (q, i)).2.peers q = w'.peers q :=
        (Function.update_self _ _ _).trans hkept'
      refine ⟨hreply.trans hreply'.symm, ?_, ?_⟩
      · rw [hself, hself', hpeers]
      · rw [hself]
        exact hclosed
    · rintro w w' i ⟨hpeers, hclosed⟩ hi
      rw [peers_step_of_ne space names w (of_decide_eq_false hi)]
      exact ⟨hpeers, hclosed⟩
  exact hunwinding.isolated ⟨rfl, fun _ => rfl⟩

/-! ## Pairs that are apart -/

/-- The semaphores of a pair are taken or refused together. -/
theorem usable_of_semaphoreNode {space : NameSpace} {n : RingName}
    (hbacking : space.takes (n.backing space) = true) {letter : Char}
    (hletter : letter = 'r' ∨ letter = 'w') (h : space.takes (n.semaphoreNode letter) = true) :
    n.Usable space := by
  refine ⟨hbacking, ?_⟩
  rcases hletter with rfl | rfl
  · exact h
  · exact (space.takes_semaphore n).trans h

/-- A pair that is apart from the others does not notice them. -/
theorem framed {space : NameSpace} {names : P → RingName}
    (hbacking : ∀ p q, p ≠ q → (names p).backing space ≠ (names q).backing space)
    (hapart : ∀ p q, p ≠ q → (names p).Usable space →
      space.takes ((names q).backing space) = true → Apart space (names p) (names q))
    {p : P} (hp : (names p).Usable space) :
    (RingWorld.access space names).Framed (RingWorld.call space names) (Dormant space names) p where
  get_put := get_put space names p
  inv := Dormant.step
  frame := by
    intro w hdormant i hne
    by_cases hq : space.takes ((names i.1).backing space) = true
    · have hnodes := hapart p i.1 hne.symm hp hq
      have hsemaphore : ∀ letter letter',
          (names p).semaphoreNode letter ≠ (names i.1).semaphoreNode letter' := fun letter letter' h =>
        hnodes.lastPart ((semaphoreNode_eq_iff _ _ _ _).mp h).1
      -- if the memory or file of `p` were a semaphore of the other pair, that one would be usable
      have hown : ∀ letter, letter = 'r' ∨ letter = 'w' →
          (names p).backing space ≠ (names i.1).semaphoreNode letter := by
        intro letter hletter heq
        have husable := usable_of_semaphoreNode hq hletter ((congrArg space.takes heq).symm.trans hp.1)
        have hother := hapart i.1 p hne husable hp.1
        rcases hletter with rfl | rfl
        · exact hother.reader heq
        · exact hother.writer heq
      simp only [RingWorld.access, Access.responder, Function.update_of_ne (hsemaphore _ _),
        Function.update_of_ne hnodes.reader.symm, Function.update_of_ne hnodes.writer.symm,
        Function.update_of_ne (hbacking p i.1 hne.symm), Function.update_of_ne hne.symm,
        Function.update_of_ne (hown 'r' (.inl rfl)), Function.update_of_ne (hown 'w' (.inr rfl))]
    · exact congrArg _ (step_of_refused hdormant (Bool.eq_false_iff.mpr hq))

/-! ## Pairs with a name in common -/

/-- Opening a server creates everything and leaves the client alone. -/
theorem openHandler_server (kind : RingKind) {taken : TakenNames} (hbacking : taken.backing = true)
    (hsemaphores : taken.semaphores = true) {s : RingPair}
    (hclosed : (s.peers .server).handler.isOpen = false) :
    ((s.openHandler kind taken .server).2.peers .server).handler.isOpen = true ∧
      (s.openHandler kind taken .server).2.peers .client = s.peers .client ∧
      (∃ i, (s.openHandler kind taken .server).2.backing.linked = some i) ∧
      (∃ i, (s.openHandler kind taken .server).2.reader.linked = some i) ∧
      ∃ i, (s.openHandler kind taken .server).2.writer.linked = some i := by
  have hcreated : (RingPair.createBacking kind s.backing).2.linked =
      some (RingPair.createBacking kind s.backing).1 := by
    cases kind with
    | memory => exact Entry.linked_create _ _
    | mapped => exact Entry.linked_create _ _
    | file => exact Entry.linked_create _ _
  have hother : RingRole.client ≠ .server := by decide
  simp only [RingPair.openHandler, hclosed, hbacking, hsemaphores, Bool.not_true, Bool.false_eq_true,
    if_false, Function.update_self, Function.update_of_ne hother]
  exact ⟨trivial, trivial, ⟨_, hcreated⟩, ⟨_, Entry.linked_create _ _⟩, _, Entry.linked_create _ _⟩

/-- Closing it removes all names. -/
theorem linked_closeHandler_server {s : RingPair} (hopen : (s.peers .server).handler.isOpen = true) :
    (s.closeHandler .server).2.reader.linked = none ∧
      (s.closeHandler .server).2.writer.linked = none ∧
      (s.closeHandler .server).2.backing.linked = none := by
  simp only [RingPair.closeHandler, hopen, if_true, Entry.unlink, and_self]

/-- A client is opened if everything is there. -/
theorem openHandler_client_of_linked {kind : RingKind} {taken : TakenNames}
    (hbacking : taken.backing = true) (hsemaphores : taken.semaphores = true) {s : RingPair}
    (hclosed : (s.peers .client).handler.isOpen = false) (hlinked : ∃ i, s.backing.linked = some i)
    (hreader : ∃ i, s.reader.linked = some i) (hwriter : ∃ i, s.writer.linked = some i) :
    (s.openHandler kind taken .client).1 = true := by
  obtain ⟨i, hi⟩ := hlinked
  obtain ⟨j, hj⟩ := hreader
  obtain ⟨k, hk⟩ := hwriter
  simp only [RingPair.openHandler, hclosed, hbacking, hsemaphores, Bool.not_true, Bool.false_eq_true,
    if_false, hi, hj, hk]

/-- It is not opened without a semaphore. -/
theorem openHandler_client_of_unlinked {kind : RingKind} {taken : TakenNames} {s : RingPair}
    (hclosed : (s.peers .client).handler.isOpen = false)
    (hmissing : s.reader.linked = none ∨ s.writer.linked = none) :
    (s.openHandler kind taken .client).1 = false := by
  by_cases hbacking : taken.backing = true
  · by_cases hsemaphores : taken.semaphores = true
    · simp only [RingPair.openHandler, hclosed, hbacking, hsemaphores, Bool.not_true,
        Bool.false_eq_true, if_false]
      rcases hmissing with hreader | hwriter
      · rw [hreader]
        cases s.backing.linked with
        | none => rfl
        | some i => rfl
      · rw [hwriter]
        cases s.backing.linked with
        | none => rfl
        | some i =>
            cases s.reader.linked with
            | none => rfl
            | some j => rfl
    · have hrefused := result_of_refused kind (fun h => hsemaphores h.2) hclosed .openHandler
      obtain ⟨backing, hresult, -⟩ := hrefused
      exact RingResult.flag.inj (congrArg Prod.fst hresult)
  · have hrefused := result_of_refused kind (fun h => hbacking h.1) hclosed .openHandler
    obtain ⟨backing, hresult, -⟩ := hrefused
    exact RingResult.flag.inj (congrArg Prod.fst hresult)

/-- The state after a call. -/
def after (space : NameSpace) (names : P → RingName) (w : RingWorld P) (p : P) (role : RingRole)
    (c : RingCall) : RingWorld P :=
  (RingWorld.step space names w (p, role, c)).2

/-- The server of a pair has been opened. -/
def opened (space : NameSpace) (names : P → RingName) (p : P) : RingWorld P :=
  after space names RingWorld.initial p .server .openHandler

/-- And then the server of another pair has been opened and closed. -/
def disturbed (space : NameSpace) (names : P → RingName) (p q : P) : RingWorld P :=
  after space names (after space names (opened space names p) q .server .openHandler) q .server
    .closeHandler

section collision

variable {space : NameSpace} {names : P → RingName} {p q : P}

/-- The client of the opened pair is closed. -/
theorem client_closed (hp : (names p).Usable space) :
    ((opened space names p).peers p .client).handler.isOpen = false := by
  have hclient := (openHandler_server (names p).kind hp.1 hp.2
    (s := (RingWorld.access space names).get p RingWorld.initial) rfl).2.1
  have hpair := get_step space names RingWorld.initial p .server .openHandler
  change (((RingWorld.access space names).get p (opened space names p)).peers .client).handler.isOpen =
    false
  rw [opened, after, hpair]
  exact congrArg (fun peer => peer.handler.isOpen) hclient

/-- Alone, the client finds what its server has created. -/
theorem openHandler_opened (hp : (names p).Usable space) :
    (((RingWorld.access space names).get p (opened space names p)).openHandler (names p).kind
      ((names p).taken space) .client).1 = true := by
  obtain ⟨-, -, hbacking, hreader, hwriter⟩ := openHandler_server (names p).kind hp.1 hp.2
    (s := (RingWorld.access space names).get p RingWorld.initial) rfl
  have hpair := get_step space names RingWorld.initial p .server .openHandler
  apply openHandler_client_of_linked hp.1 hp.2 (client_closed hp)
  · rw [opened, after, hpair]
    exact hbacking
  · rw [opened, after, hpair]
    exact hreader
  · rw [opened, after, hpair]
    exact hwriter

/-- The server of the other pair is closed when that of the first has been opened. -/
theorem server_closed (space : NameSpace) (names : P → RingName) (hne : p ≠ q) :
    (((RingWorld.access space names).get q (opened space names p)).peers .server).handler.isOpen =
      false := by
  have hpeers := peers_step_of_ne space names RingWorld.initial (i := (p, .server, .openHandler)) hne
  exact congrArg (fun peers => (peers RingRole.server).handler.isOpen) hpeers

/-- The other server removes the semaphores it takes for its own, and its memory or file. -/
theorem linked_disturbed (hne : p ≠ q) (hq : (names q).Usable space) :
    ((disturbed space names p q).nodes ((names q).semaphoreNode 'r')).linked = none ∧
      ((disturbed space names p q).nodes ((names q).backing space)).linked = none := by
  have hopen := (openHandler_server (names q).kind hq.1 hq.2
    (server_closed space names hne)).1
  have hstep := get_step space names (opened space names p) q .server .openHandler
  have hclose := get_step space names (after space names (opened space names p) q .server .openHandler)
    q .server .closeHandler
  have hremoved := linked_closeHandler_server (s := (RingWorld.access space names).get q
    (after space names (opened space names p) q .server .openHandler)) (by
      rw [after, hstep]
      exact hopen)
  refine ⟨?_, ?_⟩
  · exact (congrArg (fun s => s.reader.linked) hclose).trans hremoved.1
  · exact (congrArg (fun s => s.backing.linked) hclose).trans hremoved.2.2

/-- So it does if its semaphores are refused. -/
theorem linked_disturbed_of_refused (hne : p ≠ q)
    (hbacking : space.takes ((names q).backing space) = true) (hq : ¬ (names q).Usable space) :
    ((disturbed space names p q).nodes ((names q).backing space)).linked = none := by
  have hsemaphores : ((names q).taken space).semaphores = false :=
    Bool.eq_false_iff.mpr fun h => hq ⟨hbacking, h⟩
  have hclosed := server_closed space names hne
  have hopen : (RingPair.result (names q).kind ((names q).taken space) .server
      ((RingWorld.access space names).get q (opened space names p)) .openHandler).2.backing.linked =
        none := by
    have htaken : ((names q).taken space).backing = true := hbacking
    simp only [RingPair.result, RingPair.openHandler, hclosed, htaken, hsemaphores,
      Bool.false_eq_true, if_false, Bool.not_true, Bool.not_false, if_true, Entry.unlink]
  have hstep := get_step space names (opened space names p) q .server .openHandler
  have hdormant : Dormant space names (opened space names p) := (dormant_initial space names).step _
  have hclose := get_step space names (after space names (opened space names p) q .server .openHandler)
    q .server .closeHandler
  have hkept : (RingPair.result (names q).kind ((names q).taken space) .server
      ((RingWorld.access space names).get q
        (after space names (opened space names p) q .server .openHandler)) .closeHandler).2 =
      (RingWorld.access space names).get q
        (after space names (opened space names p) q .server .openHandler) := by
    have hstill : (((RingWorld.access space names).get q
        (after space names (opened space names p) q .server .openHandler)).peers
          .server).handler.isOpen = false := hdormant.step _ q hq .server
    simp only [RingPair.result, RingPair.closeHandler, hstill, Bool.false_eq_true, if_false]
  have hview := (hclose.trans hkept).trans hstep
  exact (congrArg (fun s => s.backing.linked) hview).trans hopen

/-- Then the client of the pair does not find its own. -/
theorem openHandler_disturbed (hne : p ≠ q) (hp : (names p).Usable space)
    (hbacking : space.takes ((names q).backing space) = true)
    (hapart : ¬ Apart space (names p) (names q)) :
    (((RingWorld.access space names).get p (disturbed space names p q)).openHandler (names p).kind
      ((names p).taken space) .client).1 = false := by
  apply openHandler_client_of_unlinked
  · have hpeers : (disturbed space names p q).peers p = (opened space names p).peers p := by
      rw [disturbed, after, peers_step_of_ne space names _ hne.symm, after,
        peers_step_of_ne space names _ hne.symm]
    change ((disturbed space names p q).peers p .client).handler.isOpen = false
    rw [hpeers]
    exact client_closed hp
  · change ((disturbed space names p q).nodes ((names p).semaphoreNode 'r')).linked = none ∨
      ((disturbed space names p q).nodes ((names p).semaphoreNode 'w')).linked = none
    have hremoved : ((disturbed space names p q).nodes ((names q).backing space)).linked = none := by
      by_cases hq : (names q).Usable space
      · exact (linked_disturbed hne hq).2
      · exact linked_disturbed_of_refused hne hbacking hq
    by_cases hreader : (names q).backing space = (names p).semaphoreNode 'r'
    · exact .inl (hreader ▸ hremoved)
    · by_cases hwriter : (names q).backing space = (names p).semaphoreNode 'w'
      · exact .inr (hwriter ▸ hremoved)
      · -- then it is the semaphore of both
        by_cases hlast : lastPart (names p).name = lastPart (names q).name
        · have hnode := (semaphoreNode_eq_iff _ _ 'r' 'r').mpr ⟨hlast, rfl⟩
          have htaken : space.takes ((names q).semaphoreNode 'r') = true :=
            (congrArg space.takes hnode).symm.trans hp.2
          rw [hnode]
          exact .inl (linked_disturbed hne ⟨hbacking, htaken⟩).1
        · exact absurd ⟨hlast, hreader, hwriter⟩ hapart

end collision

/-- A server of another pair is opened and closed before the client is opened. -/
def collision (p q : P) : List (P × RingRole × RingCall) :=
  [(p, .server, .openHandler), (q, .server, .openHandler), (q, .server, .closeHandler),
    (p, .client, .openHandler)]

/-- Pairs that are not apart are not isolated. -/
theorem not_isolated_of_not_apart {space : NameSpace} {names : P → RingName} {p q : P} (hne : p ≠ q)
    (hp : (names p).Usable space) (hbacking : space.takes ((names q).backing space) = true)
    (hapart : ¬ Apart space (names p) (names q)) :
    ¬ (RingWorld.step space names).Isolated (fun i => i.1 = p) RingWorld.initial := by
  intro hisolated
  have hreplies := hisolated (collision p q)
  have hmine : (collision p q).filter (fun i => i.1 = p) =
      [(p, .server, .openHandler), (p, .client, .openHandler)] := by
    simp [collision, hne.symm]
  rw [hmine] at hreplies
  -- the replies to the client
  have hflags : RingResult.flag
        (((RingWorld.access space names).get p (disturbed space names p q)).openHandler (names p).kind
          ((names p).taken space) .client).1 =
      .flag (((RingWorld.access space names).get p (opened space names p)).openHandler (names p).kind
          ((names p).taken space) .client).1 := by
    have hlastReply := congrArg (fun l => l.getLast?.map fun r => r.2.result) hreplies
    simp only [collision, Responder.replies, decide_true, List.filter_cons_of_pos, hne.symm,
      decide_false, Bool.false_eq_true, not_false_eq_true, List.filter_cons_of_neg, List.filter_nil,
      List.getLast?_cons_cons, List.getLast?_singleton, Option.map_some, Option.some.injEq] at hlastReply
    exact hlastReply
  rw [openHandler_disturbed hne hp hbacking hapart, openHandler_opened hp] at hflags
  cases hflags

/-- **When ring handlers are isolated.** Pairs with memories and files of their own are isolated from each
other exactly when no two of their names have the same part behind the last slash, and no memory or file
is the semaphore of another pair. Pairs whose names are refused do not matter. -/
theorem isolated_iff (space : NameSpace) {names : P → RingName}
    (hbacking : ∀ p q, p ≠ q → (names p).backing space ≠ (names q).backing space) :
    Isolated space names ↔ ∀ p q, p ≠ q → (names p).Usable space →
      space.takes ((names q).backing space) = true → Apart space (names p) (names q) := by
  constructor
  · intro h p q hne hp hq
    by_contra hapart
    exact not_isolated_of_not_apart hne hp hq hapart (h.replies p)
  · intro hapart
    refine ⟨fun p => ?_, ?_⟩
    · by_cases hp : (names p).Usable space
      · exact (framed hbacking hapart hp).isolated (dormant_initial space names)
      · exact isolated_of_refused hp
    · intro p q hne hp hq letter letter' heq
      exact (hapart p q hne hp hq.1).lastPart ((semaphore_eq_iff _ _ _ _).mp heq).1

/-- A POSIX object and a file, with different last parts. -/
def twoNames : Bool → RingName
  | false => createHandler .memory ['a']
  | true => createHandler .mapped ['b']

/-- They are isolated. -/
theorem isolated_iff_twoNames :
    Isolated .linux twoNames ↔ ∀ p q, p ≠ q → (twoNames p).Usable .linux →
      NameSpace.linux.takes ((twoNames q).backing .linux) = true →
        Apart .linux (twoNames p) (twoNames q) :=
  isolated_iff .linux (by decide)

/-- All handlers that `create_handler` makes of one path have the same semaphores. -/
theorem semaphore_createHandler (kind : RingKind) (path : List Char) (letter : Char) :
    (createHandler kind path).semaphore letter = (createHandler .memory path).semaphore letter := by
  have htmp : lastPart (['/', 't', 'm', 'p', '/'] ++ path) = lastPart path :=
    lastPart_append_slash ['/', 't', 'm', 'p'] path
  refine (semaphore_eq_iff _ _ _ _).mpr ⟨?_, rfl⟩
  cases kind with
  | memory => rfl
  | mapped => exact htmp
  | file => exact htmp

/-- The names `create_handler` gives to a POSIX object and to a file of one path. -/
def onePath : Bool → RingName
  | false => createHandler .memory ['i', 'p', 'c', '-', 'h', 'a', 'n', 'd', 'l', 'e', 'r']
  | true => createHandler .mapped ['i', 'p', 'c', '-', 'h', 'a', 'n', 'd', 'l', 'e', 'r']

/-- They are not. -/
theorem not_isolated_onePath :
    ¬ ∀ names : Bool → RingName,
      (∀ p q, p ≠ q → (names p).backing .linux ≠ (names q).backing .linux) →
        Isolated .linux names := by
  intro h
  have hlast : lastPart (onePath false).name = lastPart (onePath true).name :=
    ((semaphore_eq_iff _ _ 'r' 'r').mp (semaphore_createHandler .mapped _ 'r').symm).1
  refine not_isolated_of_not_apart Bool.false_ne_true ⟨by decide, by decide⟩ (by decide) ?_
    ((h onePath (by decide)).replies false)
  exact fun hapart => hapart.lastPart hlast

end RingName

end IpcPerformance
