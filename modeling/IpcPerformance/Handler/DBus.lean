import IpcPerformance.Handler.CommunicationHandler

/-! # D-Bus

`DBus::write` and `read` of `src/handler/dbus.cpp`. A message is a method call: the type of the object
is the last segment of the object path, id, timestamp and body are the arguments. Any process on the
session bus may call the method, with any path and any arguments; `read` looks at the path from its
13th character on and hands the rest to `std::stoul`.

* `stoul` — the conversion of the standard library; `MethodCall.read` — the reader after popping.
* `MethodCall.meets_iff` — the calls the reader treats as it should, exactly. -/

namespace IpcPerformance

/-! ## Conversion of numbers -/

/-- `isspace` in the C locale. -/
def isSpace (c : Char) : Bool := c = ' ' || (9 ≤ c.toNat && c.toNat ≤ 13)

/-- The number with the given decimal digits. -/
def decimalValue (digits : List Char) : ℕ :=
  digits.foldl (fun n c => 10 * n + (c.toNat - '0'.toNat)) 0

/-- `std::stoul`: skip white space, take a sign and the digits that follow, ignore the rest. It throws
`std::invalid_argument` without a digit, and `std::out_of_range` when the number does not fit. -/
def stoul (s : List Char) : Option ℕ :=
  let s := s.dropWhile isSpace
  let (negative, s) := match s with
    | '-' :: s => (true, s)
    | '+' :: s => (false, s)
    | s => (false, s)
  let digits := s.takeWhile Char.isDigit
  let n := decimalValue digits
  if digits = [] then none
  else if 2 ^ 64 ≤ n then none
  -- a negated number wraps
  else some (if negative then sizeT (2 ^ 64 - n) else n)

/-! ## Messages -/

/-- Characters of the elements of an object path. -/
def isPathChar (c : Char) : Bool := c.isAlphanum || c = '_'

/-- Whether a path can go on in this way, behind a slash or behind another character. -/
def validTail : Bool → List Char → Bool
  | behindSlash, [] => !behindSlash
  | true, c :: cs => isPathChar c && validTail false cs
  | false, c :: cs => if c = '/' then validTail true cs else isPathChar c && validTail false cs

/-- Whether a string is an object path: the root, or elements behind one slash each. -/
def validPath : List Char → Bool
  | '/' :: cs => cs.isEmpty || validTail true cs
  | _ => false

/-- An array of bytes: D-Bus limits the length of arrays. -/
structure ByteArrayArgument where
  /-- The elements. -/
  bytes : List UInt8
  /-- At most 64 MiB. -/
  length_le : bytes.length ≤ 2 ^ 26
  deriving DecidableEq

/-- An array of the first bytes of a list, as many as it may have. -/
def ByteArrayArgument.ofList (bytes : List UInt8) : ByteArrayArgument :=
  ⟨bytes.take (2 ^ 26), List.length_take_le _ _⟩

/-- An argument of a method call, as far as the reader tells them apart. -/
inductive Argument
  | uint32 (value : UInt32)
  | int64 (value : Int64)
  | byteArray (array : ByteArrayArgument)
  | other
  deriving DecidableEq

/-- A method call with interface `INTERFACE_NAME` and member `METHOD_NAME`. -/
structure MethodCall where
  /-- The object path. -/
  path : List Char
  /-- The bus only lets object paths through. -/
  path_valid : validPath path = true
  /-- The arguments. -/
  args : List Argument
  deriving DecidableEq

/-- What `dbus_connection_pop_message` returns. -/
inductive PoppedMessage
  | none
  /-- A message that is not a call of the method. -/
  | other
  | call (call : MethodCall)
  deriving DecidableEq

/-- `PATH_PREFIX`. -/
def pathPrefix : List Char := ['/', 'i', 'p', 'c', '/', 'o', 'b', 'j', 'e', 'c', 't', '/']

/-- The path a type is written to: the prefix and `std::to_string` of the number of the type. -/
def typePath (type : DataType) : List Char := pathPrefix ++ Nat.toDigits 10 type.value.toNat

theorem validPath_typePath (o : DataObject) : validPath (typePath o.getType) = true := by
  have h : ∀ type ∈ [DataType.ping, .javaSymbolLookup, .binaryData],
      validPath (typePath type) = true := by decide
  exact h _ (by cases o <;> simp [DataObject.getType])

/-! ## Reading -/

/-- A call of `read`: its outcome, and how often the popped message has been given back. -/
structure DBusRead where
  /-- How the call ended. -/
  outcome : Except Fault ReadResult
  /-- Number of calls of `dbus_message_unref`. -/
  unrefs : ℕ

namespace MethodCall

/-- The type `read` gets from a path: it indexes past the prefix without comparing it, converts what
it finds there, and casts the number to the 16 bits of a `DataType`. -/
def pathType (path : List Char) : Except Fault DataType :=
  -- the terminating zero is the last character that may be looked at
  if path.length < pathPrefix.length then .error .outOfBounds
  else
    match stoul (path.drop pathPrefix.length) with
    | none => .error .uncaught
    | some n => .ok ⟨UInt16.ofNat n⟩

/-- The arguments of `read`, one after the other. -/
def readArguments (type : DataType) (args : List Argument) : DBusRead :=
  match args with
  | .uint32 id :: args =>
      match args with
      | .int64 timestamp :: args =>
          match args with
          | .byteArray array :: _ =>
              let size := array.bytes.length
              let body := deserializeDataObject type (Memory.write (fun _ => 0) 0 array.bytes) 0 size
              ⟨.ok (readResult ⟨id, type, UInt16.ofNat size, timestamp⟩ body), 1⟩
          | _ => ⟨.ok (.error .invalidData), 1⟩
      | _ => ⟨.ok (.error .invalidData), 1⟩
  | _ => ⟨.ok (.error .invalidData), 1⟩

/-- `DBus::read` of a call of the method. -/
def read (call : MethodCall) : DBusRead :=
  if call.args = [] then ⟨.ok (.error .invalidData), 1⟩
  else
    match pathType call.path with
    | .error fault => ⟨.error fault, 0⟩
    | .ok type => readArguments type call.args

end MethodCall

/-- The fields of `DBus` its operations use. -/
structure DBus where
  /-- Whether there is a connection to the bus. -/
  isOpen : Bool
  /-- Id of the last message written. -/
  lastId : UInt32
  /-- The bytes of `buffer_`. -/
  buffer : Memory UInt8

namespace DBus

/-- `DBus::read`. -/
def read (dbus : DBus) (popped : PoppedMessage) : DBusRead :=
  if dbus.isOpen then
    match popped with
    | .none => ⟨.ok (.error .noDataAvailable), 0⟩
    | .other => ⟨.ok (.error .noDataAvailable), 1⟩
    | .call call => call.read
  else ⟨.ok (.error .connectionClosed), 0⟩

/-! ## Writing -/

/-- How far libdbus gets with a message. -/
inductive SendStage
  | noMessage
  | outOfMemory
  | sent
  deriving DecidableEq

/-- A call of `write`: its result, the fields it leaves and the message handed to the bus. -/
structure DBusWrite where
  /-- The value returned. -/
  result : Bool
  /-- The bytes of `buffer_`. -/
  buffer : Memory UInt8
  /-- Id of the last message written. -/
  lastId : UInt32
  /-- The message sent. -/
  sent : Option MethodCall

/-- `DBus::write`. The body alone is serialized to `buffer_`, with all of it to use. -/
def write (dbus : DBus) (o : DataObject) (timestamp : Int64) (stage : SendStage) : DBusWrite :=
  if dbus.isOpen then
    if stage = .noMessage then ⟨false, dbus.buffer, dbus.lastId, none⟩
    else
      let (size, buffer) := o.serialize dbus.buffer 0 bufferSize
      if size = -1 then ⟨false, buffer, dbus.lastId, none⟩
      else
        let lastId := dbus.lastId + 1
        if stage = .outOfMemory then ⟨false, buffer, lastId, none⟩
        else
          let array := ByteArrayArgument.ofList (buffer.read 0 size.toNat)
          ⟨true, buffer, lastId, some ⟨typePath o.getType, validPath_typePath o,
            [.uint32 lastId, .int64 timestamp, .byteArray array]⟩⟩
  else ⟨false, dbus.buffer, dbus.lastId, none⟩

end DBus

/-! ## What a reader accepts -/

namespace MethodCall

/-- **What the reader is to do with a call**: return, give the message back once, and return an object
only for a message of the form `write` sends. -/
def Meets (call : MethodCall) : Prop :=
  call.read.unrefs = 1 ∧
  ∃ result, call.read.outcome = .ok result ∧
    ∀ header o, result = .ok (header, o) →
      call.path = typePath o.getType ∧
      ∃ array, call.args = [.uint32 header.id, .int64 header.timestamp, .byteArray array] ∧
        header.bodySize.toNat = array.bytes.length

/-- A call the reader treats as it should: one without arguments, or one whose path has a number
where the prefix ends, and which is of the form `write` sends if its arguments start with the body of
an object of the type of that number. -/
def Proper (call : MethodCall) : Prop :=
  call.args = [] ∨
  ∃ n, pathPrefix.length ≤ call.path.length ∧ stoul (call.path.drop pathPrefix.length) = some n ∧
    ∀ id timestamp array args o,
      call.args = .uint32 id :: .int64 timestamp :: .byteArray array :: args →
      DataObject.ofImage ⟨UInt16.ofNat n⟩ array.bytes = .ok o →
      call.path = typePath ⟨UInt16.ofNat n⟩ ∧ args = [] ∧ array.bytes.length < 2 ^ 16

/-- The path gives a type when a number follows the first characters. -/
theorem pathType_eq_ok_iff {path : List Char} {type : DataType} :
    pathType path = .ok type ↔ ∃ n, pathPrefix.length ≤ path.length ∧
      stoul (path.drop pathPrefix.length) = some n ∧ type = ⟨UInt16.ofNat n⟩ := by
  unfold pathType
  by_cases hlen : path.length < pathPrefix.length
  · rw [if_pos hlen]
    constructor
    · intro h
      cases h
    · rintro ⟨n, hle, -⟩
      omega
  · rw [if_neg hlen]
    cases hn : stoul (path.drop pathPrefix.length) with
    | none => simp
    | some n =>
        constructor
        · intro h
          cases h
          exact ⟨n, Nat.le_of_not_lt hlen, rfl, rfl⟩
        · rintro ⟨m, -, hm, rfl⟩
          cases hm
          rfl

/-- The arguments are either those of a message, of which the body is decoded, or are refused. -/
theorem readArguments_cases (type : DataType) (args : List Argument) :
    (∃ id timestamp array rest,
      args = .uint32 id :: .int64 timestamp :: .byteArray array :: rest ∧
      readArguments type args =
        ⟨.ok (readResult ⟨id, type, UInt16.ofNat array.bytes.length, timestamp⟩
          (DataObject.ofImage type array.bytes)), 1⟩) ∨
    ((∀ id timestamp array rest,
      args ≠ .uint32 id :: .int64 timestamp :: .byteArray array :: rest) ∧
      readArguments type args = ⟨.ok (.error .invalidData), 1⟩) := by
  unfold readArguments
  split
  · split
    · split
      · left
        refine ⟨_, _, _, _, rfl, ?_⟩
        simp only [deserializeDataObject_eq, Memory.read_write]
      · right
        refine ⟨?_, rfl⟩
        rintro id timestamp array rest h
        simp_all
    · right
      refine ⟨?_, rfl⟩
      rintro id timestamp array rest h
      simp_all
  · right
    refine ⟨?_, rfl⟩
    rintro id timestamp array rest h
    simp_all

/-- A call with the arguments of a message is treated as it should if it is one, or not decoded. -/
theorem meets_iff_of_message {call : MethodCall} {n : ℕ}
    (hlen : pathPrefix.length ≤ call.path.length)
    (hn : stoul (call.path.drop pathPrefix.length) = some n) {id : UInt32} {timestamp : Int64}
    {array : ByteArrayArgument} {rest : List Argument}
    (hargs : call.args = .uint32 id :: .int64 timestamp :: .byteArray array :: rest)
    (hread : call.read =
      ⟨.ok (readResult ⟨id, ⟨UInt16.ofNat n⟩, UInt16.ofNat array.bytes.length, timestamp⟩
        (DataObject.ofImage ⟨UInt16.ofNat n⟩ array.bytes)), 1⟩) :
    call.Meets ↔ call.Proper := by
  constructor
  · -- an object that is decoded has to come from a call as `write` makes them
    rintro ⟨-, result, hresult, hform⟩
    refine .inr ⟨n, hlen, hn, ?_⟩
    intro id' timestamp' array' args o hargs' hbody
    cases hargs.symm.trans hargs'
    rw [hread, hbody] at hresult
    obtain ⟨hpath, array', hargs', hsize⟩ := hform _ o (Except.ok.inj hresult).symm
    rw [hargs, List.cons.injEq, List.cons.injEq, List.cons.injEq] at hargs'
    obtain ⟨-, -, harray, hrest⟩ := hargs'
    cases harray
    refine ⟨?_, hrest, ?_⟩
    · rw [hpath, (DataObject.image_prefix_of_ofImage hbody).1]
    · rw [← hsize]
      exact UInt16.toNat_lt _
  · rintro (h | ⟨m, -, hm, hform⟩)
    · rw [hargs] at h
      cases h
    · -- the length of the array survives the 16 bits of the header
      cases hn.symm.trans hm
      refine ⟨by rw [hread], _, by rw [hread], ?_⟩
      intro header o hresult
      obtain ⟨rfl, hbody⟩ := eq_of_readResult_eq_ok hresult
      obtain ⟨hpath, rfl, hshort⟩ := hform id timestamp array rest o hargs hbody
      refine ⟨by rw [hpath, (DataObject.image_prefix_of_ofImage hbody).1], array, hargs, ?_⟩
      rw [UInt16.toNat_ofNat', Nat.mod_eq_of_lt hshort]

/-- **Which calls the reader treats as it should.** Those without arguments; and those with a number
in the right place of the path that are messages of the form `write` sends, or do not carry an object
of the type of that number. -/
theorem meets_iff (call : MethodCall) : call.Meets ↔ call.Proper := by
  by_cases hargs : call.args = []
  · -- the reader returns before it looks at the path
    have hread : call.read = ⟨.ok (.error .invalidData), 1⟩ := if_pos hargs
    constructor
    · intro _
      exact .inl hargs
    · intro _
      rw [Meets, hread]
      refine ⟨rfl, _, rfl, ?_⟩
      intro header o h
      cases h
  · cases htype : pathType call.path with
    | error fault =>
        -- the path ends the call: it does not return, and no number can be read from it
        have hread : call.read = ⟨.error fault, 0⟩ := by
          rw [read, if_neg hargs, htype]
        constructor
        · rintro ⟨hunrefs, -⟩
          rw [hread] at hunrefs
          cases hunrefs
        · rintro (h | ⟨n, hlen, hn, -⟩)
          · exact absurd h hargs
          · have hok := pathType_eq_ok_iff.mpr ⟨n, hlen, hn, rfl⟩
            rw [htype] at hok
            cases hok
    | ok type =>
        obtain ⟨n, hlen, hn, rfl⟩ := pathType_eq_ok_iff.mp htype
        have hread : call.read = readArguments ⟨UInt16.ofNat n⟩ call.args := by
          rw [read, if_neg hargs, htype]
        rcases readArguments_cases ⟨UInt16.ofNat n⟩ call.args with
          ⟨id, timestamp, array, rest, heq, hresult⟩ | ⟨hne, hresult⟩
        · exact meets_iff_of_message hlen hn heq (hread.trans hresult)
        · -- the arguments are refused
          constructor
          · intro _
            refine .inr ⟨n, hlen, hn, ?_⟩
            intro id timestamp array args o h
            exact absurd h (hne id timestamp array args)
          · intro _
            rw [Meets, hread, hresult]
            refine ⟨rfl, _, rfl, ?_⟩
            intro header o h
            cases h

/-- A call on the root path, with an id as its only argument. -/
def rootCall : MethodCall := ⟨['/'], rfl, [.uint32 7]⟩

/-- The same call on a path whose last element is not a number. -/
def wordCall : MethodCall := ⟨pathPrefix ++ ['x'], by decide, [.uint32 7]⟩

/-- A ping on the path of number 65537, which is that of pings up to the width of a type. -/
def wrappedCall : MethodCall :=
  ⟨pathPrefix ++ ['6', '5', '5', '3', '7'], by decide, [.uint32 7, .int64 0, .byteArray ⟨[], by decide⟩]⟩

/-- The reader indexes past the root path, throws on the word, and takes the third call for a ping. -/
theorem not_meets_calls : ¬ rootCall.Meets ∧ ¬ wordCall.Meets ∧ ¬ wrappedCall.Meets := by
  refine ⟨?_, ?_, ?_⟩
  · rintro ⟨hunrefs, -⟩
    exact absurd hunrefs (by decide)
  · rintro ⟨hunrefs, -⟩
    exact absurd hunrefs (by decide)
  · rintro ⟨-, result, hresult, hform⟩
    have hping : wrappedCall.read.outcome = .ok (.ok (⟨7, .ping, 0, 0⟩, .ping)) := by rfl
    obtain ⟨hpath, -⟩ := hform _ _ (Except.ok.inj (hresult.symm.trans hping))
    exact absurd hpath (by decide)

end MethodCall

end IpcPerformance
