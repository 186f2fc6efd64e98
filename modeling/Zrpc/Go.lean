import Mathlib.Algebra.Order.Ring.Int
import Mathlib.Data.List.AList
import Zrpc.Lib.LittleEndian

/-!
# The parts of Go the model uses

Strings and byte slices are byte lists. A function that can return an error or panic runs in
`Go`. What the standard library does with non-ASCII text and with gzip data is left open: it is
a field of `Env`, so every theorem holds for all of its behaviours.
-/

namespace Zrpc

open Zrpc.Lib

universe u

abbrev Bytes := List UInt8

/-- A Go string is a byte string; it need not be UTF-8. -/
abbrev GoString := List UInt8

/-- The bytes of a Go string constant. -/
def str (s : String) : GoString := s.toUTF8.data.toList

/-- How a Go function ends early: with an `error` of the given text, or with a panic. -/
inductive Fault
  | error (text : GoString)
  | panic
  deriving DecidableEq

abbrev Go := Except Fault

/-- The statement `return errors.New(text)`. -/
def fail {α : Type u} (text : GoString) : Go α := .error (.error text)

/-- The expression `b[lo:hi]`. -/
def slice {α : Type u} (b : List α) (lo hi : Nat) : Go (List α) :=
  if lo ≤ hi ∧ hi ≤ b.length then .ok ((b.take hi).drop lo) else .error .panic

/-- The expression `b[i]`. -/
def index {α : Type u} (b : List α) (i : Nat) : Go α :=
  match b[i]? with
  | some x => .ok x
  | none => .error .panic

/-- The expression `binary.LittleEndian.Uint32(b[offset : offset+4])`. -/
def uint32At (b : Bytes) (offset : Nat) : Go Nat := do
  let word ← slice b offset (offset + 4)
  return leNat word

/-- An `io.Reader`: what it delivers and the text of the error it gives from then on. -/
structure Reader where
  data : Bytes
  failure : GoString
  deriving DecidableEq

def ioEOF : GoString := str "EOF"
def ioErrUnexpectedEOF : GoString := str "unexpected EOF"

/-- `io.ReadFull(r, buf)` for a buffer of length `n`. A short read uses up the reader. -/
def Reader.readFull (r : Reader) (n : Nat) : Go Bytes × Reader :=
  if n ≤ r.data.length then (.ok (r.data.take n), { r with data := r.data.drop n })
  else if r.data ≠ [] ∧ r.failure = ioEOF then (fail ioErrUnexpectedEOF, { r with data := [] })
  else (fail r.failure, { r with data := [] })

/-- Standard library functions the model is generic in: `strings.Map(unicode.ToLower, s)`, which
`strings.ToLower` uses off the ASCII range, a whole input written through a `gzip.Writer` and read
through a `gzip.Reader`, and `strconv.Quote`. -/
structure Env where
  mapLower : GoString → GoString
  gzipWrite : Bytes → Except GoString Bytes
  gzipRead : Bytes → Except GoString Bytes
  quote : GoString → GoString

def lowerByte (c : UInt8) : UInt8 := if 65 ≤ c ∧ c ≤ 90 then c + 32 else c

/-- `strings.ToLower`, with its ASCII path written out. -/
def Env.toLower (E : Env) (s : GoString) : GoString :=
  if s.all (· < 128) then s.map lowerByte else E.mapLower s

/-- Wraps an integer to the range of `int64`, and to that of `int32`. -/
def int64 (n : Int) : Int := (n + 2 ^ 63) % 2 ^ 64 - 2 ^ 63

def int32 (n : Int) : Int := (n + 2 ^ 31) % 2 ^ 32 - 2 ^ 31

lemma int64_eq {n : Int} (hlow : -2 ^ 63 ≤ n) (hhigh : n < 2 ^ 63) : int64 n = n := by
  unfold int64
  omega

lemma int32_eq {n : Int} (hlow : -2 ^ 31 ≤ n) (hhigh : n < 2 ^ 31) : int32 n = n := by
  unfold int32
  omega

lemma int32_le {n : Int} (hn : 0 ≤ n) : int32 n ≤ n := by
  unfold int32
  omega

lemma int32_int32_add (n m : Int) : int32 (int32 n + m) = int32 (n + m) := by
  unfold int32
  omega

end Zrpc
