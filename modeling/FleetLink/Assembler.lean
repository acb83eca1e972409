import FleetLink.Config
import FleetLink.Packet
import FleetLink.Zlib

/-!
# Assembling responses

Responses arrive in chunks, in any order and perhaps more than once.  The assembler keeps one open
buffer for every source that has sent part of a response, and hands out the body when the last
missing chunk arrives.  Which vehicle a source belongs to is no business of the assembler.

**What bounds the memory.**  A buffer that is as old as the timeout is gone, whoever sends the next
chunk.  When as many sources as allowed have an open buffer, the oldest one makes room for another.
A body is inflated no further than its limit.

**Buffers stand in the order in which they were opened,** so that of several buffers with one time
the one that was opened first is the oldest.  Any order would do: which of them makes room then is
left open, and no result relies on it.  What is proved of `oldest?` is that it is one of the buffers
and that none has an earlier time.

**When a buffer starts over.**  A chunk of another response from the same source, that is, with
another sequence, count or compression, drops what was there.  A chunk whose header makes no sense
touches nothing.

## Main Definitions

* `AssemblyLimits` — timeout, buffers and body size
* `AssemblyBuffer` — the chunks of one response so far
* `Assembler` — the open buffers
* `Assembler.add` — one chunk
* `AssemblyFault` — why a chunk or a body is refused
-/

namespace FleetLink

/-- Why a chunk is refused, or the body it completes. -/
inductive AssemblyFault where
  | emptyResponse (origin : Source)
  | chunkOutOfRange (origin : Source) (index total : UInt8)
  | undecodable (origin : Source)
  | bodyTooLarge (origin : Source) (limit : Nat)
  deriving DecidableEq, Repr

/-- The wording of a refusal.  What is wrong with bytes that cannot be inflated, whatever inflates
them tells in words of its own; these would follow behind a colon and are left out. -/
def AssemblyFault.message : AssemblyFault → String
  | emptyResponse origin => s!"response chunk from {origin.text} declares zero chunks"
  | chunkOutOfRange origin index total =>
    s!"chunk {index.toNat} out of range for {total.toNat}-chunk response from {origin.text}"
  | undecodable origin => s!"failed to inflate compressed response from {origin.text}"
  | bodyTooLarge origin limit => s!"response from {origin.text} exceeds {limit} bytes once inflated"

/-- What bounds an assembler. -/
structure AssemblyLimits where
  /-- The age in milliseconds at which a buffer is dropped. -/
  timeout : Nat
  /-- How many sources may have an open buffer. -/
  maxBuffers : Nat
  /-- How many bytes a body may have. -/
  maxBodyBytes : Nat
  maxBuffers_pos : 0 < maxBuffers
  maxBodyBytes_pos : 0 < maxBodyBytes

namespace AssemblyLimits

/-- The body size when none is configured. -/
def standardBodyBytes : Nat := 1048576

/-- Limits from any numbers; a bound of zero counts as one. -/
def clamped (timeout maxBuffers maxBodyBytes : Nat) : AssemblyLimits where
  timeout := timeout
  maxBuffers := max 1 maxBuffers
  maxBodyBytes := max 1 maxBodyBytes
  maxBuffers_pos := by omega
  maxBodyBytes_pos := by omega

/-- The limits that settings ask for. -/
def ofSettings (s : ReassemblySettings) : AssemblyLimits :=
  clamped (s.chunkTimeout.toNat * 1000) s.maxPendingBuffers.toNat s.maxBodyBytes.toNat

end AssemblyLimits

/-- The chunks of one response so far. -/
structure AssemblyBuffer where
  sequence : UInt8
  compressed : Bool
  /-- One place for each chunk. -/
  slots : List (Option (List UInt8))
  /-- How many places are filled. -/
  received : Nat
  /-- When the first chunk came. -/
  firstSeen : Nat
  deriving DecidableEq, Repr

namespace AssemblyBuffer

/-- A buffer for the response that a chunk is part of. -/
def opened (chunk : Chunk) (compressed : Bool) (now : Nat) : AssemblyBuffer where
  sequence := chunk.sequence
  compressed := compressed
  slots := List.replicate chunk.total.toNat none
  received := 0
  firstSeen := now

/-- A chunk is part of the response that the buffer holds. -/
def matchesChunk (b : AssemblyBuffer) (chunk : Chunk) (compressed : Bool) : Bool :=
  b.sequence = chunk.sequence && b.slots.length = chunk.total.toNat && b.compressed = compressed

/-- Puts a chunk in its place; none if the place is taken. -/
def fill? (b : AssemblyBuffer) (chunk : Chunk) : Option AssemblyBuffer :=
  match b.slots[chunk.index.toNat]? with
  | some none =>
    some { b with
      slots := b.slots.set chunk.index.toNat (some chunk.body)
      received := b.received + 1 }
  | _ => none

/-- No chunk is missing. -/
def isComplete (b : AssemblyBuffer) : Bool :=
  b.received = b.slots.length

/-- The bodies of the chunks one after another. -/
def bytes (b : AssemblyBuffer) : List UInt8 :=
  b.slots.flatMap (·.getD [])

/-- How long ago the first chunk came. -/
def age (b : AssemblyBuffer) (now : Nat) : Nat := now - b.firstSeen

end AssemblyBuffer

/-- The open buffers with their sources, in the order in which they were opened. -/
structure Assembler where
  limits : AssemblyLimits
  buffers : List (Source × AssemblyBuffer)

namespace Assembler

/-- An assembler without open buffers. -/
def new (limits : AssemblyLimits) : Assembler := ⟨limits, []⟩

/-- How many sources have an open buffer. -/
def pending (a : Assembler) : Nat := a.buffers.length

/-- The open buffer of a source. -/
def buffer? (a : Assembler) (source : Source) : Option AssemblyBuffer :=
  (a.buffers.find? (·.1 = source)).map (·.2)

/-- Drops the buffer of a source. -/
def drop (a : Assembler) (source : Source) : Assembler :=
  { a with buffers := a.buffers.filter (·.1 ≠ source) }

/-- Puts a buffer in the place of the one its source has, or behind all others. -/
def put (a : Assembler) (source : Source) (b : AssemblyBuffer) : Assembler :=
  { a with buffers :=
      if (a.buffer? source).isSome then
        a.buffers.map fun e => if e.1 = source then (source, b) else e
      else a.buffers ++ [(source, b)] }

/-- Drops the buffers that are as old as the timeout. -/
def evictExpired (a : Assembler) (now : Nat) : Assembler :=
  { a with buffers := a.buffers.filter fun e => e.2.age now < a.limits.timeout }

/-- The first of the entries with the least time. -/
def oldest? (entries : List (Source × AssemblyBuffer)) : Option (Source × AssemblyBuffer) :=
  match entries with
  | [] => none
  | e :: rest =>
    match oldest? rest with
    | none => some e
    | some f => if f.2.firstSeen < e.2.firstSeen then some f else some e

/-- Drops the oldest buffer. -/
def evictOldest (a : Assembler) : Assembler :=
  match oldest? a.buffers with
  | none => a
  | some e => a.drop e.1

/-- Drops the buffer of a source if a chunk is not part of the response in it. -/
def dropSuperseded (a : Assembler) (source : Source) (chunk : Chunk) (compressed : Bool) :
    Assembler :=
  match a.buffer? source with
  | some b => if b.matchesChunk chunk compressed then a else a.drop source
  | none => a

/-- Makes room for a buffer of a source that has none. -/
def makeRoom (a : Assembler) (source : Source) : Assembler :=
  if (a.buffer? source).isNone ∧ a.limits.maxBuffers ≤ a.buffers.length then a.evictOldest else a

/-- The body that the bytes of a complete response stand for: inflated if they are compressed, and
no larger than allowed. -/
def body (limits : AssemblyLimits) (source : Source) (compressed : Bool) (bytes : List UInt8) :
    Except AssemblyFault (List UInt8) :=
  if compressed then
    match (Zlib.inflate bytes).within limits.maxBodyBytes with
    | .whole inflated => .ok inflated
    | .tooLong => .error (.bodyTooLarge source limits.maxBodyBytes)
    | .broken => .error (.undecodable source)
  else if limits.maxBodyBytes < bytes.length then
    .error (.bodyTooLarge source limits.maxBodyBytes)
  else .ok bytes

/-- Puts a chunk with a sound header into the buffer of its source, and closes the buffer when
nothing is missing any more. -/
def place (a : Assembler) (now : Nat) (source : Source) (compressed : Bool) (chunk : Chunk) :
    Assembler × Except AssemblyFault (Option (List UInt8)) :=
  let buffer := (a.buffer? source).getD (.opened chunk compressed now)
  match buffer.fill? chunk with
  | none => (a, .ok none)
  | some filled =>
    if filled.isComplete then
      (a.drop source, (body a.limits source filled.compressed filled.bytes).map some)
    else (a.put source filled, .ok none)

/-- Takes in a chunk from a source: the body it completes, or none while chunks are missing. -/
def add (a : Assembler) (now : Nat) (source : Source) (compressed : Bool) (chunk : Chunk) :
    Assembler × Except AssemblyFault (Option (List UInt8)) :=
  let live := a.evictExpired now
  if chunk.total = 0 then (live, .error (.emptyResponse source))
  else if chunk.total ≤ chunk.index then
    (live, .error (.chunkOutOfRange source chunk.index chunk.total))
  else
    ((live.dropSuperseded source chunk compressed).makeRoom source).place
      now source compressed chunk

@[simp] theorem buffers_new (limits : AssemblyLimits) : (new limits).buffers = [] := rfl

end Assembler

end FleetLink
