import Mathlib.Data.List.Basic

/-!
# Input streams

A binary input stream over a file: a position and a failure flag.  Reading behind the end of the
file delivers what is left and sets the flag; a stream whose flag is set delivers nothing and does
not move any more.
-/

/-- A stream over the bytes of a file. -/
structure InputStream where
  bytes : List UInt8
  position : ℕ
  failed : Bool

namespace InputStream

/-- A stream at the start of a file. -/
def ofBytes (bytes : List UInt8) : InputStream := ⟨bytes, 0, false⟩

/-- What lies in front of the position. -/
def remaining (is : InputStream) : List UInt8 := is.bytes.drop is.position

/-- `seekg`: the stream moves to a position of the file. -/
def seekg (is : InputStream) (position : ℕ) : InputStream :=
  if is.failed then is else { is with position := position }

/-- `read`: up to `n` bytes are delivered. -/
def read (is : InputStream) (n : ℕ) : List UInt8 × InputStream :=
  if is.failed then ([], is)
  else
    let data := is.remaining.take n
    (data, { is with position := is.position + data.length, failed := decide (data.length < n) })

/-- A stream delivers no more than it is asked for. -/
lemma length_read_le (is : InputStream) (n : ℕ) : (is.read n).1.length ≤ n := by
  unfold read
  split
  · simp
  · simp only [List.length_take]
    omega

/-- Bytes that are there are delivered, and the stream moves behind them. -/
lemma read_eq {is : InputStream} {data rest : List UInt8} (hok : is.failed = false)
    (h : is.remaining = data ++ rest) :
    is.read data.length =
      (data, { is with position := is.position + data.length, failed := false }) := by
  simp [read, hok, h]

/-- What remains behind bytes that have been read. -/
lemma remaining_advance {is : InputStream} {data rest : List UInt8} (failed : Bool)
    (h : is.remaining = data ++ rest) :
    remaining { is with position := is.position + data.length, failed := failed } = rest := by
  have hdrop : is.bytes.drop (is.position + data.length) = is.remaining.drop data.length := by
    rw [remaining, List.drop_drop]
  rw [remaining, hdrop, h, List.drop_left]

end InputStream
