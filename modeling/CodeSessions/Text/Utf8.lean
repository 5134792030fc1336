/-!
# UTF-8 — characters of a byte string that need not be well formed

`Utf8.units` cuts a byte string into its characters.  Bytes that are part of no character are cut
into the longest pieces that could still have become one, and each such piece is a `none`:

- `Utf8.unit` reads the piece at the front,
- `Utf8.units` reads them all,
- `Utf8.text` shows every broken piece as U+FFFD.
-/

namespace CodeSessions
namespace Utf8

/-- Reads `n` further bytes of a character whose leading bits are `value`; the next of them has to
lie between `low` and `high`, the others between `0x80` and `0xBF`. -/
def tail : (n : Nat) → (low high : UInt8) → (value : Nat) → List UInt8 → Option Char × List UInt8
  | 0, _, _, value, bytes => (some (Char.ofNat value), bytes)
  | _ + 1, _, _, _, [] => (none, [])
  | n + 1, low, high, value, b :: bytes =>
      if low ≤ b ∧ b ≤ high then tail n 0x80 0xBF (value * 64 + (b.toNat - 0x80)) bytes
      else (none, b :: bytes)

/-- The character or broken piece that `lead` starts, and the bytes after it. -/
def unit (lead : UInt8) (bytes : List UInt8) : Option Char × List UInt8 :=
  if lead < 0x80 then (some (Char.ofNat lead.toNat), bytes)
  else if lead < 0xC2 then (none, bytes)
  else if lead < 0xE0 then tail 1 0x80 0xBF (lead.toNat - 0xC0) bytes
  else if lead = 0xE0 then tail 2 0xA0 0xBF 0x0 bytes
  else if lead = 0xED then tail 2 0x80 0x9F 0xD bytes
  else if lead < 0xF0 then tail 2 0x80 0xBF (lead.toNat - 0xE0) bytes
  else if lead = 0xF0 then tail 3 0x90 0xBF 0x0 bytes
  else if lead < 0xF4 then tail 3 0x80 0xBF (lead.toNat - 0xF0) bytes
  else if lead = 0xF4 then tail 3 0x80 0x8F 0x4 bytes
  else (none, bytes)

theorem length_tail_le (n : Nat) (low high : UInt8) (value : Nat) (bytes : List UInt8) :
    (tail n low high value bytes).2.length ≤ bytes.length := by
  fun_induction tail n low high value bytes with
  | case1 => exact Nat.le_refl _
  | case2 => exact Nat.le_refl _
  | case3 _ _ _ _ _ _ _ ih => exact Nat.le_succ_of_le ih
  | case4 => exact Nat.le_refl _

theorem length_unit_le (lead : UInt8) (bytes : List UInt8) :
    (unit lead bytes).2.length ≤ bytes.length := by
  unfold unit
  repeat' split
  all_goals first | exact Nat.le_refl _ | exact length_tail_le ..

/-- The units of `bytes`, put behind the units already read, which come last first. -/
def unitsFrom (done : List (Option Char)) (bytes : List UInt8) : List (Option Char) :=
  match bytes with
  | [] => done.reverse
  | lead :: rest => unitsFrom ((unit lead rest).1 :: done) (unit lead rest).2
  termination_by bytes.length
  decreasing_by exact Nat.lt_succ_of_le (length_unit_le lead rest)

def units (bytes : List UInt8) : List (Option Char) :=
  unitsFrom [] bytes

/-- The text of a byte string, with U+FFFD for each broken piece. -/
def text (bytes : ByteArray) : String :=
  match String.fromUTF8? bytes with
  | some s => s
  | none => String.ofList ((units bytes.toList).map fun u => u.getD '\uFFFD')

end Utf8
end CodeSessions
