import LedgerWire.Bytes
import LedgerWire.Error.Wire

namespace LedgerWire

/-!
Readers of byte strings. A reader answers a value or a cause, and in either case the bytes that it
left; these always end the input, so that a loop over a nonempty input gets shorter with every
step that takes a byte.
-/

/-- What a reader answers, with the bytes left. -/
inductive Outcome (α : Type) where
  | done (value : α) (rest : Bytes)
  | failed (cause : DecodeError) (rest : Bytes)

namespace Outcome

def rest {α : Type} : Outcome α → Bytes
  | .done _ rest => rest
  | .failed _ rest => rest

def toExcept {α : Type} : Outcome α → Except DecodeError α
  | .done value _ => .ok value
  | .failed cause _ => .error cause

end Outcome

structure Reader (α : Type) where
  run : Bytes → Outcome α
  rest_suffix : ∀ input, (run input).rest <:+ input

namespace Reader

variable {α β σ : Type}

def pure (value : α) : Reader α where
  run input := .done value input
  rest_suffix input := List.suffix_refl input

def fail (cause : DecodeError) : Reader α where
  run input := .failed cause input
  rest_suffix input := List.suffix_refl input

/-- Runs a reader and then the one that its value chooses. -/
def bind (reader : Reader α) (next : α → Reader β) : Reader β where
  run input :=
    match reader.run input with
    | .done value rest => (next value).run rest
    | .failed cause rest => .failed cause rest
  rest_suffix input := by
    have first := reader.rest_suffix input
    split <;> rename_i outcome
    · rw [outcome] at first
      exact ((next _).rest_suffix _).trans first
    · rw [outcome] at first
      exact first

instance : Monad Reader where
  pure := Reader.pure
  bind := Reader.bind

/-- Answers what a computation answers, and takes nothing. -/
def ofExcept (computed : Except DecodeError α) : Reader α :=
  match computed with
  | .ok value => pure value
  | .error cause => fail cause

/-- The reader with its causes replaced. -/
def mapCause (change : DecodeError → DecodeError) (reader : Reader α) : Reader α where
  run input :=
    match reader.run input with
    | .done value rest => .done value rest
    | .failed cause rest => .failed (change cause) rest
  rest_suffix input := by
    have inner := reader.rest_suffix input
    split <;> rename_i outcome <;> rw [outcome] at inner <;> exact inner

/-- The reader that a closed computation builds once input arrives. -/
def delay (reader : Unit → Reader α) : Reader α where
  run input := (reader ()).run input
  rest_suffix input := (reader ()).rest_suffix input

/-- Takes one byte. -/
def byte (context : String) : Reader UInt8 where
  run
    | [] => .failed (.unexpectedEnd context) []
    | byte :: rest => .done byte rest
  rest_suffix
    | [] => List.suffix_refl []
    | byte :: rest => List.suffix_cons byte rest

/-- Takes `width` bytes, or nothing if fewer are left. -/
def octets (width : Nat) (context : String) : Reader (Octets width) where
  run input :=
    match Octets.ofBytes? width (input.take width) with
    | some taken => .done taken (input.drop width)
    | none => .failed (.unexpectedEnd context) input
  rest_suffix input := by
    split
    · exact List.drop_suffix width input
    · exact List.suffix_refl input

/-- Takes `count` bytes, or nothing if fewer are left. -/
def bytes (count : Nat) (context : String) : Reader Bytes := do
  return (← octets count context).toList

/-- Takes everything that is left. -/
def rest : Reader Bytes where
  run input := .done input []
  rest_suffix _ := List.nil_suffix

/-- Takes a number of `width` bytes, most significant first. -/
def natural (width : Nat) (context : String) : Reader Nat := do
  return Bytes.toNat (← octets width context).toList

def uint16 (context : String) : Reader UInt16 := do
  return UInt16.ofNat (← natural 2 context)

def uint32 (context : String) : Reader UInt32 := do
  return UInt32.ofNat (← natural 4 context)

def uint64 (context : String) : Reader UInt64 := do
  return UInt64.ofNat (← natural 8 context)

/-- Folds a step over the input, byte by byte. The step gets the byte that it starts with, and may
take more; an ending byte is taken and ends the fold, and so does the end of input, unless that is
a failure. -/
def foldRun (atEnd : Option DecodeError) (isEnd : UInt8 → Bool) (step : σ → UInt8 → Reader σ)
    (state : σ) (input : Bytes) : Outcome σ :=
  match input with
  | [] =>
    match atEnd with
    | none => .done state []
    | some cause => .failed cause []
  | first :: tail =>
    if isEnd first then .done state tail
    else
      match _taken : (step state first).run tail with
      | .done next rest => foldRun atEnd isEnd step next rest
      | .failed cause rest => .failed cause rest
termination_by input.length
decreasing_by
  have shorter := ((step state first).rest_suffix tail).length_le
  rw [_taken] at shorter
  exact Nat.lt_succ_of_le shorter

theorem foldRun_rest_suffix (atEnd : Option DecodeError) (isEnd : UInt8 → Bool)
    (step : σ → UInt8 → Reader σ) (state : σ) (input : Bytes) :
    (foldRun atEnd isEnd step state input).rest <:+ input := by
  fun_induction foldRun atEnd isEnd step state input with
  | case1 => exact List.suffix_refl []
  | case2 => exact List.suffix_refl []
  | case3 state first tail ends => exact List.suffix_cons first tail
  | case4 state first tail continues next rest taken ih =>
    have inner := (step state first).rest_suffix tail
    rw [taken] at inner
    exact ih.trans (inner.trans (List.suffix_cons first tail))
  | case5 state first tail continues cause rest taken =>
    have inner := (step state first).rest_suffix tail
    rw [taken] at inner
    exact inner.trans (List.suffix_cons first tail)

def fold (atEnd : Option DecodeError) (isEnd : UInt8 → Bool) (step : σ → UInt8 → Reader σ)
    (start : σ) : Reader σ where
  run := foldRun atEnd isEnd step start
  rest_suffix := foldRun_rest_suffix atEnd isEnd step start

def decode (reader : Reader α) (input : Bytes) : Except DecodeError α :=
  (reader.run input).toExcept

end Reader

end LedgerWire
