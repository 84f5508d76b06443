import CompiledFrames.Text.Utf8
import Mathlib.Tactic.IntervalCases

/-!
# Written text is read back

The bytes that write a text are cut into its characters, with no ill-formed part. So reading them
gives the text, whether ill-formed parts are replaced or refused.

## Main results

* `Utf8.scanFrom_utf8EncodeChar`: the bytes of a character are read as that character
* `Utf8.decodeLossy_encode`: a written text is read back
-/

namespace CompiledFrames.Utf8

/-! ## Leading bytes -/

theorem lead_one {n : Nat} (h : n < 0x80) :
    lead (UInt8.ofNat n) = ([some (Char.ofNat n)], .start) := by
  have hn : (UInt8.ofNat n).toNat = n := UInt8.toNat_ofNat_of_lt' (by show _ < 256; omega)
  have hlt : UInt8.ofNat n < 0x80 := by
    rw [UInt8.lt_iff_toNat_lt, hn]
    exact h
  unfold lead
  rw [if_pos hlt, hn]

/-- Five bits lead a character of two bytes; the least two of their values would write a character
that one byte writes. -/
theorem lead_two {n : Nat} (hlow : 2 ≤ n) (hhigh : n < 0x20) :
    lead (UInt8.ofNat (n + 0xc0)) = ([], .inside 1 0x80 0xbf n) := by
  interval_cases n <;> rfl

/-- Four bits lead a character of three bytes. The next byte is bounded where two bytes would do and
where surrogates lie. -/
theorem lead_three {n : Nat} (h : n < 0x10) :
    lead (UInt8.ofNat (n + 0xe0)) =
      ([], .inside 2 (if n = 0 then 0xa0 else 0x80) (if n = 0xd then 0x9f else 0xbf) n) := by
  interval_cases n <;> rfl

/-- Three bits lead a character of four bytes. The next byte is bounded where three bytes would do
and where characters end. -/
theorem lead_four {n : Nat} (h : n < 5) :
    lead (UInt8.ofNat (n + 0xf0)) =
      ([], .inside 3 (if n = 0 then 0x90 else 0x80) (if n = 4 then 0x8f else 0xbf) n) := by
  interval_cases n <;> rfl

/-! ## Continuing bytes -/

/-- A byte that continues a character adds six bits to its number. -/
theorem step_inside {missing code n : Nat} {low high : UInt8} (hn : n < 64)
    (hlow : low.toNat ≤ n + 0x80) (hhigh : n + 0x80 ≤ high.toNat) :
    step (.inside missing low high code) (UInt8.ofNat (n + 0x80)) =
      if missing ≤ 1 then ([some (Char.ofNat (code * 64 + n))], .start)
      else ([], .inside (missing - 1) 0x80 0xbf (code * 64 + n)) := by
  have hb : (UInt8.ofNat (n + 0x80)).toNat = n + 0x80 :=
    UInt8.toNat_ofNat_of_lt' (by show _ < 256; omega)
  have hbits : (UInt8.ofNat (n + 0x80) &&& 0x3f).toNat = n := by
    have hmask : (0x3f : UInt8).toNat = 2 ^ 6 - 1 := rfl
    rw [UInt8.toNat_and, hb, hmask, Nat.and_two_pow_sub_one_eq_mod]
    omega
  have hin : low ≤ UInt8.ofNat (n + 0x80) ∧ UInt8.ofNat (n + 0x80) ≤ high := by
    rw [UInt8.le_iff_toNat_le, UInt8.le_iff_toNat_le, hb]
    exact ⟨hlow, hhigh⟩
  simp only [step, if_pos hin, hbits]

/-- The last byte of a character completes it. -/
theorem scanFrom_last {code n : Nat} {low high : UInt8} (hn : n < 64)
    (hlow : low.toNat ≤ n + 0x80) (hhigh : n + 0x80 ≤ high.toNat) (rest : List UInt8) :
    scanFrom (.inside 1 low high code) (UInt8.ofNat (n + 0x80) :: rest) =
      some (Char.ofNat (code * 64 + n)) :: scanFrom .start rest := by
  simp only [scanFrom, step_inside hn hlow hhigh]
  rfl

/-- A byte before the last one leaves the character open. -/
theorem scanFrom_next {missing code n : Nat} {low high : UInt8} (hn : n < 64)
    (hlow : low.toNat ≤ n + 0x80) (hhigh : n + 0x80 ≤ high.toNat) (rest : List UInt8) :
    scanFrom (.inside (missing + 2) low high code) (UInt8.ofNat (n + 0x80) :: rest) =
      scanFrom (.inside (missing + 1) 0x80 0xbf (code * 64 + n)) rest := by
  simp only [scanFrom, step_inside hn hlow hhigh]
  rw [if_neg (by omega)]
  rfl

/-! ## Characters -/

/-- A byte that leads a character opens it. -/
theorem scanFrom_start {b : UInt8} {state : State} (h : lead b = ([], state))
    (rest : List UInt8) : scanFrom .start (b :: rest) = scanFrom state rest := by
  simp only [scanFrom, step, h, List.nil_append]

theorem scanFrom_one {v : Nat} (h : v < 0x80) (rest : List UInt8) :
    scanFrom .start (UInt8.ofNat v :: rest) = some (Char.ofNat v) :: scanFrom .start rest := by
  simp only [scanFrom, step, lead_one h, List.cons_append, List.nil_append]

theorem scanFrom_two {v : Nat} (hlow : 0x80 ≤ v) (hhigh : v < 0x800) (rest : List UInt8) :
    scanFrom .start
        (UInt8.ofNat (v / 64 % 0x20 + 0xc0) :: UInt8.ofNat (v % 0x40 + 0x80) :: rest) =
      some (Char.ofNat v) :: scanFrom .start rest := by
  have hlead : v / 64 % 0x20 = v / 64 := by omega
  have hcode : v / 64 * 64 + v % 0x40 = v := by omega
  rw [hlead, scanFrom_start (lead_two (by omega) (by omega)),
    scanFrom_last (by omega) (by simp) (by simp; omega), hcode]

theorem scanFrom_three {v : Nat} (hlow : 0x800 ≤ v) (hhigh : v < 0x10000)
    (hvalid : v < 0xd800 ∨ 0xdfff < v) (rest : List UInt8) :
    scanFrom .start
        (UInt8.ofNat (v / 4096 % 0x10 + 0xe0) :: UInt8.ofNat (v / 64 % 0x40 + 0x80) ::
          UInt8.ofNat (v % 0x40 + 0x80) :: rest) =
      some (Char.ofNat v) :: scanFrom .start rest := by
  have hlead : v / 4096 % 0x10 = v / 4096 := by omega
  have hcode : (v / 4096 * 64 + v / 64 % 0x40) * 64 + v % 0x40 = v := by omega
  have hmin : (if v / 4096 = 0 then (0xa0 : UInt8) else 0x80).toNat ≤ v / 64 % 0x40 + 0x80 := by
    split_ifs
    · simp
      omega
    · simp
  have hmax : v / 64 % 0x40 + 0x80 ≤ (if v / 4096 = 0xd then (0x9f : UInt8) else 0xbf).toNat := by
    split_ifs <;> simp <;> omega
  rw [hlead, scanFrom_start (lead_three (by omega)), scanFrom_next (by omega) hmin hmax,
    scanFrom_last (by omega) (by simp) (by simp; omega), hcode]

theorem scanFrom_four {v : Nat} (hlow : 0x10000 ≤ v) (hhigh : v < 0x110000) (rest : List UInt8) :
    scanFrom .start
        (UInt8.ofNat (v / 262144 % 0x08 + 0xf0) :: UInt8.ofNat (v / 4096 % 0x40 + 0x80) ::
          UInt8.ofNat (v / 64 % 0x40 + 0x80) :: UInt8.ofNat (v % 0x40 + 0x80) :: rest) =
      some (Char.ofNat v) :: scanFrom .start rest := by
  have hlead : v / 262144 % 0x08 = v / 262144 := by omega
  have hcode : ((v / 262144 * 64 + v / 4096 % 0x40) * 64 + v / 64 % 0x40) * 64 + v % 0x40 = v := by
    omega
  have hmin : (if v / 262144 = 0 then (0x90 : UInt8) else 0x80).toNat ≤ v / 4096 % 0x40 + 0x80 := by
    split_ifs
    · simp
      omega
    · simp
  have hmax : v / 4096 % 0x40 + 0x80 ≤ (if v / 262144 = 4 then (0x8f : UInt8) else 0xbf).toNat := by
    split_ifs <;> simp <;> omega
  rw [hlead, scanFrom_start (lead_four (by omega)), scanFrom_next (by omega) hmin hmax,
    scanFrom_next (by omega) (by simp) (by simp; omega),
    scanFrom_last (by omega) (by simp) (by simp; omega), hcode]

/-- **The bytes of a character are read as that character**, whatever follows them. -/
theorem scanFrom_utf8EncodeChar (c : Char) (rest : List UInt8) :
    scanFrom .start (String.utf8EncodeChar c ++ rest) = some c :: scanFrom .start rest := by
  have hvalid : c.val.toNat < 0xd800 ∨ 0xdfff < c.val.toNat ∧ c.val.toNat < 0x110000 := c.valid
  have hchar : Char.ofNat c.val.toNat = c := Char.ofNat_toNat c
  simp only [String.utf8EncodeChar]
  split_ifs with h1 h2 h3 <;> simp only [List.cons_append, List.nil_append]
  · rw [scanFrom_one (by omega), hchar]
  · rw [scanFrom_two (by omega) (by omega), hchar]
  · rw [scanFrom_three (by omega) (by omega) (by omega), hchar]
  · rw [scanFrom_four (by omega) (by omega), hchar]

/-! ## Texts -/

theorem scan_encode (text : String) : scan (encode text) = text.toList.map some := by
  unfold scan encode
  induction text.toList with
  | nil => rfl
  | cons c chars ih => rw [List.flatMap_cons, scanFrom_utf8EncodeChar, ih, List.map_cons]

/-- **A written text is read back.** -/
theorem decodeLossy_encode (text : String) : decodeLossy (encode text) = text := by
  unfold decodeLossy
  rw [scan_encode, List.map_map]
  have hid : (fun c : Option Char => c.getD '\uFFFD') ∘ some = id := rfl
  rw [hid, List.map_id, String.ofList_toList]

end CompiledFrames.Utf8
