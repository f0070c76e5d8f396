/-!
# Big-endian numbers

A number of `width` bytes, the most significant byte first.  `ofNat` writes it and `toNat` reads it; the
two are inverse to each other on numbers that fit (`toNat_ofNat`) and on byte lists (`ofNat_toNat`).
-/

namespace NodeTrace.BigEndian

/-- The number that `bytes` write, most significant byte first. -/
def toNat (bytes : List UInt8) : Nat :=
  bytes.foldl (fun n b => n * 256 + b.toNat) 0

/-- The last `width` bytes of the number, most significant byte first. -/
def ofNat : (width : Nat) → Nat → List UInt8
  | 0, _ => []
  | width + 1, n => ofNat width (n / 256) ++ [UInt8.ofNat (n % 256)]

/-- How many numbers `width` bytes can write. -/
def capacity : (width : Nat) → Nat
  | 0 => 1
  | width + 1 => capacity width * 256

@[simp] theorem toNat_nil : toNat [] = 0 := rfl

theorem toNat_concat (bytes : List UInt8) (b : UInt8) :
    toNat (bytes ++ [b]) = toNat bytes * 256 + b.toNat := by
  simp [toNat, List.foldl_append]

@[simp] theorem length_ofNat (width n : Nat) : (ofNat width n).length = width := by
  induction width generalizing n with
  | zero => rfl
  | succ width ih => simp [ofNat, ih]

theorem toNat_ofNat {width n : Nat} (h : n < capacity width) : toNat (ofNat width n) = n := by
  induction width generalizing n with
  | zero =>
    obtain rfl : n = 0 := Nat.lt_one_iff.1 h
    rfl
  | succ width ih =>
    have hq : n / 256 < capacity width := (Nat.div_lt_iff_lt_mul (by decide)).2 h
    have hb : (UInt8.ofNat (n % 256)).toNat = n % 256 := by
      rw [UInt8.toNat_ofNat']; exact Nat.mod_mod _ _
    rw [ofNat, toNat_concat, ih hq, hb]
    omega

theorem toNat_lt (bytes : List UInt8) : toNat bytes < capacity bytes.length := by
  suffices h : ∀ k, toNat (bytes.take k) < capacity (bytes.take k).length by
    simpa using h bytes.length
  intro k
  induction k with
  | zero => simp [capacity]
  | succ k ih =>
    by_cases hk : k < bytes.length
    · rw [List.take_succ_eq_append_getElem hk, toNat_concat]
      have hb := (bytes[k]).toNat_lt
      simp only [List.length_append, List.length_singleton, capacity]
      omega
    · rwa [List.take_of_length_le (by omega), ← List.take_of_length_le (Nat.le_of_not_lt hk)]

theorem ofNat_toNat (bytes : List UInt8) : ofNat bytes.length (toNat bytes) = bytes := by
  suffices h : ∀ k, ofNat (bytes.take k).length (toNat (bytes.take k)) = bytes.take k by
    simpa using h bytes.length
  intro k
  induction k with
  | zero => simp [ofNat]
  | succ k ih =>
    by_cases hk : k < bytes.length
    · rw [List.take_succ_eq_append_getElem hk, toNat_concat]
      have hb := (bytes[k]).toNat_lt
      have hq : (toNat (bytes.take k) * 256 + (bytes[k]).toNat) / 256 = toNat (bytes.take k) := by
        omega
      have hr : (toNat (bytes.take k) * 256 + (bytes[k]).toNat) % 256 = (bytes[k]).toNat := by
        omega
      rw [List.length_append, List.length_singleton, ofNat, hq, hr, ih, UInt8.ofNat_toNat]
    · rwa [List.take_of_length_le (by omega), ← List.take_of_length_le (Nat.le_of_not_lt hk)]

end NodeTrace.BigEndian
