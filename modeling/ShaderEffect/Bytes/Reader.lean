import ShaderEffect.Bytes.Region

/-!
# Sequential reading

A reader goes through a region of data from a position on. It answers a value and the position
after it, or the first error met.
-/

namespace ShaderEffect

/-- A computation that reads a region from a position on. -/
abbrev Reader := ReaderT Bytes (StateT Nat (Except FormatError))

/-- Repeat an action and list what it answers. -/
@[specialize] def repeated {m : Type → Type} [Monad m] {α : Type} (act : m α) :
    Nat → List α → m (List α)
  | 0, done => pure done.reverse
  | n + 1, done => do
    let a ← act
    repeated act n (a :: done)

namespace Reader

/-- Run a reader on a region from `position` on, forgetting where it ends. -/
def runAt {α : Type} (reader : Reader α) (data : Bytes) (position : Nat) :
    Except FormatError α :=
  match reader data position with
  | .ok (a, _) => .ok a
  | .error e => .error e

/-- The next word. -/
def word (field : String) : Reader UInt32 := fun data position =>
  match data.word position field with
  | .ok w => .ok (w, position + 4)
  | .error e => .error e

/-- The next `length` bytes; the position moves on to a multiple of four bytes after its start. -/
def paddedSlice (length : Nat) (field : String) : Reader Bytes := fun data position =>
  match data.slice position length field with
  | .ok bs => .ok (bs, position + (length + Word.padding length))
  | .error e => .error e

/-- Read something in the same region at another position; the position here stays. -/
def elsewhere {α : Type} (position : Nat) (reader : Reader α) : Reader α := fun data here =>
  match reader data position with
  | .ok (a, _) => .ok (a, here)
  | .error e => .error e

/-- Read something that needs the whole region and no position. -/
def whole {α : Type} (f : Bytes → Except FormatError α) : Reader α := fun data here =>
  match f data with
  | .ok a => .ok (a, here)
  | .error e => .error e

/-- A count of records of at least `least` bytes each, refused if the region cannot hold them. -/
def checkCount (count : UInt32) (least : Nat) (record : String) : Reader Unit :=
  whole fun data =>
    if count.toNat * least ≤ data.size then .ok ()
    else .error (.countTooLarge record count.toNat data.size)

/-- `count` values one after the other. -/
def times {α : Type} (count : Nat) (reader : Reader α) : Reader (List α) :=
  repeated reader count []

end Reader

end ShaderEffect
