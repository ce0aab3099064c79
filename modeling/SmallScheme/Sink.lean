import SmallScheme.Text

/-!
Where a program's output goes: the bytes written so far, and how many more are accepted. A text
that does not fit leaves the part of it that fits, and is an error.
-/

namespace SmallScheme

inductive SinkError where
  | full
  | flushRefused
  deriving DecidableEq, Repr, Inhabited

def SinkError.message : SinkError → String
  | full => "sink is full"
  | flushRefused => "flush refused"

structure Sink where
  /-- The bytes written so far, the last one first. -/
  reversed : List UInt8
  /-- How many more bytes are accepted; all are when there is no number. -/
  room : Option Nat
  /-- Every flush is refused. -/
  refusesFlush : Bool
  deriving Repr

namespace Sink

def unlimited : Sink := ⟨[], none, false⟩

def written (s : Sink) : List UInt8 := s.reversed.reverse

def write (s : Sink) (bytes : List UInt8) : Except SinkError Unit × Sink :=
  match s.room with
  | none => (.ok (), { s with reversed := bytes.reverseAux s.reversed })
  | some n =>
    (if bytes.length ≤ n then .ok () else .error .full,
      { s with reversed := (bytes.take n).reverseAux s.reversed, room := some (n - bytes.length) })

theorem written_write (s : Sink) (bytes : List UInt8) :
    (s.write bytes).2.written = s.written ++ s.room.elim bytes (bytes.take ·) := by
  unfold write
  split <;> simp_all [written, List.reverseAux_eq]

def flush (s : Sink) : Except SinkError Unit :=
  if s.refusesFlush then .error .flushRefused else .ok ()

end Sink

end SmallScheme
