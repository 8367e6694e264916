import PeerMesh.Message

/-! Messages on a stream of bytes. A connection opens with the routing id of its sender. Each
message follows as the number of its frames and then, frame by frame, the number of bytes and the
bytes; every number is a word of four bytes, low byte first. -/

namespace PeerMesh.Tcp
set_option autoImplicit false

def maxFrames : Nat := 1024

/-- The most bytes of a frame on a stream: 16 MiB. -/
def maxFrameBytes : Nat := 16777216

def routingIdLength : Nat := 17

/-! ### Writing -/

inductive SizeError
  | tooManyFrames
  | frameTooLarge
  deriving DecidableEq

def SizeError.message : SizeError → String
  | tooManyFrames => "too many frames"
  | frameTooLarge => "frame too large"

def sizeError? (content : Content) : Option SizeError :=
  if content.length > maxFrames then some .tooManyFrames
  else if content.any (·.size > maxFrameBytes) then some .frameTooLarge
  else none

/-- The four bytes of a number below 2^32. -/
def wordBytes (n : Nat) : ByteArray :=
  ⟨#[.ofNat n, .ofNat (n / 256), .ofNat (n / 65536), .ofNat (n / 16777216)]⟩

/-- The bytes of a message without regard to its size. -/
def frameBytes (content : Content) : ByteArray :=
  content.foldl (fun out f => out ++ wordBytes f.size ++ f) (wordBytes content.length)

/-- Puts frames behind what is there, and gives up at the first one that is too large. -/
def appendFrames (out : ByteArray) : Content → Except SizeError ByteArray
  | [] => .ok out
  | f :: rest =>
    if f.size > maxFrameBytes then .error .frameTooLarge
    else appendFrames (out ++ wordBytes f.size ++ f) rest

def writeMessage (content : Content) : Except SizeError ByteArray :=
  if content.length > maxFrames then .error .tooManyFrames
  else appendFrames (wordBytes content.length) content

/-! ### Reading -/

inductive StreamError
  /-- The stream ends inside a message. -/
  | unexpectedEnd
  | size (error : SizeError)
  deriving DecidableEq

/-- The number at a place in a stream, and the place after it. -/
def readWord (stream : ByteArray) (place : Nat) : Except StreamError (Nat × Nat) :=
  if h : place + 4 ≤ stream.size then
    .ok (stream[place].toNat + 256 * stream[place + 1].toNat + 65536 * stream[place + 2].toNat +
      16777216 * stream[place + 3].toNat, place + 4)
  else .error .unexpectedEnd

/-- Reads `n` frames. A frame that is too large is refused before its bytes are looked for. -/
def readFrames (stream : ByteArray) : Nat → Nat → Except StreamError (Content × Nat)
  | 0, place => .ok ([], place)
  | n + 1, place => do
    let (length, place) ← readWord stream place
    if length > maxFrameBytes then throw (.size .frameTooLarge)
    if place + length > stream.size then throw .unexpectedEnd
    let (content, next) ← readFrames stream n (place + length)
    return (stream.extract place (place + length) :: content, next)

def readMessage (stream : ByteArray) (place : Nat) : Except StreamError (Content × Nat) := do
  let (count, place) ← readWord stream place
  if count > maxFrames then throw (.size .tooManyFrames)
  readFrames stream count place

theorem le_of_readFrames {stream : ByteArray} {n place next : Nat} {content : Content}
    (h : readFrames stream n place = .ok (content, next)) : place ≤ next := by
  induction n generalizing place content next with
  | zero =>
    simp only [readFrames, Except.ok.injEq, Prod.mk.injEq] at h
    omega
  | succ n ih =>
    unfold readFrames at h
    cases hw : readWord stream place with
    | error e => simp [hw, bind, Except.bind] at h
    | ok r =>
      obtain ⟨length, after⟩ := r
      simp only [hw, bind, Except.bind] at h
      split at h
      · simp [throw, throwThe, MonadExceptOf.throw] at h
      split at h
      · simp [throw, throwThe, MonadExceptOf.throw] at h
      cases hr : readFrames stream n (after + length) with
      | error e => simp [hr] at h
      | ok r =>
        obtain ⟨more, next'⟩ := r
        simp only [hr, pure, Except.pure, Except.ok.injEq, Prod.mk.injEq] at h
        have := ih hr
        have : after = place + 4 := by
          unfold readWord at hw
          split at hw
          · simp only [Except.ok.injEq, Prod.mk.injEq] at hw
            omega
          · simp at hw
        omega

theorem lt_of_readMessage {stream : ByteArray} {place next : Nat} {content : Content}
    (h : readMessage stream place = .ok (content, next)) : place < next ∧ place < stream.size := by
  unfold readMessage at h
  unfold readWord at h
  split at h
  · simp only [bind, Except.bind] at h
    split at h
    · simp [throw, throwThe, MonadExceptOf.throw] at h
    · have := le_of_readFrames h
      omega
  · simp [bind, Except.bind] at h

structure Batch where
  messages : List Content
  /-- The place after the last of them. -/
  next : Nat
  /-- Why there is no further one; `none` if the stream ends there. -/
  stop : Option StreamError

def readMessages (stream : ByteArray) (place : Nat) : Batch :=
  if stream.size ≤ place then ⟨[], place, none⟩
  else
    match h : readMessage stream place with
    | .error e => ⟨[], place, some e⟩
    | .ok (content, next) =>
      have := lt_of_readMessage h
      let rest := readMessages stream next
      { rest with messages := content :: rest.messages }
termination_by stream.size - place

/-- What a connection brings: its sender's routing id and the messages before the stream ends or
goes wrong. A stream that ends inside the routing id brings nothing. -/
def readConnection (stream : ByteArray) : Option (List UInt8 × List Content) :=
  if stream.size < routingIdLength then none
  else
    some ((stream.extract 0 routingIdLength).data.toList,
      (readMessages stream routingIdLength).messages)

/-- What the reader of a connection forwards, each message with the routing id of its sender, and
how it ends. That the stream ends is an error only inside the routing id. -/
def forwardConnection (stream : ByteArray) :
    List (List UInt8 × Content) × Except StreamError Unit :=
  match readConnection stream with
  | none => ([], .error .unexpectedEnd)
  | some (routingId, messages) =>
    (messages.map (routingId, ·), match (readMessages stream routingIdLength).stop with
      | some (.size e) => .error (.size e)
      | _ => .ok ())

def writeConnection (routingId : List UInt8) (messages : List Content) : ByteArray :=
  messages.foldl (fun out m => out ++ frameBytes m) ⟨routingId.toArray⟩

end PeerMesh.Tcp
