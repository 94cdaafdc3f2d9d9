import RobotMaze.Text.Utf8

/-!
# Bytes that have been written can be read

`Utf8.encode` writes a text character by character, and `Utf8.decode` reads bytes one by one, with
what it knows of a character that is not complete. This file shows that reading gives back what was
written.

A lead byte restricts the byte after it: this is how overlong forms, surrogates and code points past
the last one are refused. A character is never one of these, so the bytes that are written for it
keep to the restriction (`decodeFrom_three`, `decodeFrom_four`). That is the only place where it
matters which numbers are code points.
-/

namespace RobotMaze

namespace Utf8

variable {pos : Nat} {p : Pending} {b : UInt8} {rest : Bytes}

theorem decodeFrom_lead (hb : 0x80 ≤ b.toNat) (h : Pending.ofLead? pos b = some p) :
    decodeFrom pos none (b :: rest) = decodeFrom (pos + 1) (some p) rest := by
  rw [decodeFrom, if_neg (Nat.not_lt.2 hb), h]

/-- A continuation byte holds six bits. -/
theorem toNat_continuation (n : Nat) : (UInt8.ofNat (n % 64 + 128)).toNat = n % 64 + 128 :=
  UInt8.toNat_ofNat_of_lt (show n % 64 + 128 < 256 by omega)

theorem extend_continuation (p : Pending) (n : Nat) :
    p.extend (UInt8.ofNat (n % 64 + 128)) =
      { p with
        due := p.due - 1, least := 0x80, greatest := 0xBF, code := 64 * p.code + n % 64 } := by
  rw [Pending.extend, toNat_continuation, Nat.add_sub_cancel]

/-- A continuation byte that is not the last one. -/
theorem decodeFrom_next {n : Nat} (hl : p.least ≤ n % 64 + 128) (hg : n % 64 + 128 ≤ p.greatest)
    (hdue : 1 < p.due) :
    decodeFrom pos (some p) (UInt8.ofNat (n % 64 + 128) :: rest) =
      decodeFrom (pos + 1)
        (some { p with
          due := p.due - 1, least := 0x80, greatest := 0xBF, code := 64 * p.code + n % 64 })
        rest := by
  have hne : p.due - 1 ≠ 0 := by omega
  rw [decodeFrom, toNat_continuation, if_pos (by simp [hl, hg])]
  simp only [extend_continuation, hne, if_false]

/-- The last continuation byte completes the character. -/
theorem decodeFrom_last {n : Nat} (hl : p.least ≤ n % 64 + 128) (hg : n % 64 + 128 ≤ p.greatest)
    (hdue : p.due = 1) :
    decodeFrom pos (some p) (UInt8.ofNat (n % 64 + 128) :: rest) =
      (decodeFrom (pos + 1) none rest).map (Char.ofNat (64 * p.code + n % 64) :: ·) := by
  have hzero : p.due - 1 = 0 := by omega
  rw [decodeFrom, toNat_continuation, if_pos (by simp [hl, hg])]
  simp only [extend_continuation, hzero, if_true]

section

variable {v : Nat}

theorem decodeFrom_two (hlow : 0x7F < v) (hhigh : v ≤ 0x7FF) :
    decodeFrom pos none
        (UInt8.ofNat (v / 64 % 32 + 192) :: UInt8.ofNat (v % 64 + 128) :: rest) =
      (decodeFrom (pos + 2) none rest).map (Char.ofNat v :: ·) := by
  generalize hlead : UInt8.ofNat (v / 64 % 32 + 192) = lead
  have hleadNat : lead.toNat = v / 64 % 32 + 192 :=
    hlead ▸ UInt8.toNat_ofNat_of_lt (show v / 64 % 32 + 192 < 256 by omega)
  have hpending : Pending.ofLead? pos lead = some ⟨lead, pos, 1, 0x80, 0xBF, v / 64 % 32⟩ := by
    simp only [Pending.ofLead?, hleadNat]
    rw [if_pos (by simp only [Bool.and_eq_true, decide_eq_true_eq]; omega), Nat.add_sub_cancel]
  rw [decodeFrom_lead (by omega) hpending,
    decodeFrom_last (by simp only; omega) (by simp only; omega) rfl]
  simp only
  rw [show 64 * (v / 64 % 32) + v % 64 = v by omega]

/-- Three bytes. Neither is the form overlong, nor is the code point that of a surrogate. -/
theorem decodeFrom_three (hlow : 0x7FF < v) (hhigh : v ≤ 0xFFFF)
    (hsurrogate : v < 0xD800 ∨ 0xDFFF < v) :
    decodeFrom pos none (UInt8.ofNat (v / 4096 % 16 + 224) ::
        UInt8.ofNat (v / 64 % 64 + 128) :: UInt8.ofNat (v % 64 + 128) :: rest) =
      (decodeFrom (pos + 3) none rest).map (Char.ofNat v :: ·) := by
  generalize hlead : UInt8.ofNat (v / 4096 % 16 + 224) = lead
  have hleadNat : lead.toNat = v / 4096 % 16 + 224 :=
    hlead ▸ UInt8.toNat_ofNat_of_lt (show v / 4096 % 16 + 224 < 256 by omega)
  obtain ⟨least, greatest, hpending, hleast, hgreatest⟩ : ∃ least greatest,
      Pending.ofLead? pos lead = some ⟨lead, pos, 2, least, greatest, v / 4096 % 16⟩ ∧
        least ≤ v / 64 % 64 + 128 ∧ v / 64 % 64 + 128 ≤ greatest := by
    simp only [Pending.ofLead?, hleadNat]
    rw [if_neg (by simp only [Bool.and_eq_true, decide_eq_true_eq]; omega),
      if_pos (by simp only [Bool.and_eq_true, decide_eq_true_eq]; omega), Nat.add_sub_cancel]
    refine ⟨_, _, rfl, ?_, ?_⟩ <;> split <;> omega
  rw [decodeFrom_lead (by omega) hpending,
    decodeFrom_next hleast hgreatest (show 1 < 2 by omega),
    decodeFrom_last (by simp only; omega) (by simp only; omega) rfl]
  simp only
  rw [show 64 * (64 * (v / 4096 % 16) + v / 64 % 64) + v % 64 = v by omega]

/-- Four bytes. Neither is the form overlong, nor is the code point past the last one. -/
theorem decodeFrom_four (hlow : 0xFFFF < v) (hhigh : v < 0x110000) :
    decodeFrom pos none (UInt8.ofNat (v / 262144 % 8 + 240) ::
        UInt8.ofNat (v / 4096 % 64 + 128) :: UInt8.ofNat (v / 64 % 64 + 128) ::
          UInt8.ofNat (v % 64 + 128) :: rest) =
      (decodeFrom (pos + 4) none rest).map (Char.ofNat v :: ·) := by
  generalize hlead : UInt8.ofNat (v / 262144 % 8 + 240) = lead
  have hleadNat : lead.toNat = v / 262144 % 8 + 240 :=
    hlead ▸ UInt8.toNat_ofNat_of_lt (show v / 262144 % 8 + 240 < 256 by omega)
  obtain ⟨least, greatest, hpending, hleast, hgreatest⟩ : ∃ least greatest,
      Pending.ofLead? pos lead = some ⟨lead, pos, 3, least, greatest, v / 262144 % 8⟩ ∧
        least ≤ v / 4096 % 64 + 128 ∧ v / 4096 % 64 + 128 ≤ greatest := by
    simp only [Pending.ofLead?, hleadNat]
    rw [if_neg (by simp only [Bool.and_eq_true, decide_eq_true_eq]; omega),
      if_neg (by simp only [Bool.and_eq_true, decide_eq_true_eq]; omega),
      if_pos (by simp only [Bool.and_eq_true, decide_eq_true_eq]; omega), Nat.add_sub_cancel]
    refine ⟨_, _, rfl, ?_, ?_⟩ <;> split <;> omega
  rw [decodeFrom_lead (by omega) hpending,
    decodeFrom_next hleast hgreatest (show 1 < 3 by omega),
    decodeFrom_next (by simp only; omega) (by simp only; omega) (show 1 < 3 - 1 by omega),
    decodeFrom_last (by simp only; omega) (by simp only; omega) rfl]
  simp only
  rw [show 64 * (64 * (64 * (v / 262144 % 8) + v / 4096 % 64) + v / 64 % 64) + v % 64 = v by omega]

end

/-- **One character.** The bytes of a character are read as that character. -/
theorem decodeFrom_utf8EncodeChar (c : Char) (pos : Nat) (rest : Bytes) :
    decodeFrom pos none (String.utf8EncodeChar c ++ rest) =
      (decodeFrom (pos + (String.utf8EncodeChar c).length) none rest).map (c :: ·) := by
  have hc : Char.ofNat c.val.toNat = c := Char.ofNat_toNat c
  have hvalid : c.val.toNat < 0xD800 ∨ 0xDFFF < c.val.toNat ∧ c.val.toNat < 0x110000 := c.valid
  rw [String.utf8EncodeChar]
  generalize c.val.toNat = v at hc hvalid
  subst hc
  split
  · have hbyte : (UInt8.ofNat v).toNat = v := UInt8.toNat_ofNat_of_lt (show v < 256 by omega)
    rw [List.singleton_append, decodeFrom, if_pos (by omega), hbyte, List.length_singleton]
  · split
    · exact decodeFrom_two (by omega) (by omega)
    · split
      · exact decodeFrom_three (by omega) (by omega) (by omega)
      · exact decodeFrom_four (by omega) (by omega)

theorem decodeFrom_encode (t : Text) (pos : Nat) : decodeFrom pos none (encode t) = .ok t := by
  induction t generalizing pos with
  | nil => rw [encode, List.flatMap_nil, decodeFrom]
  | cons c rest ih =>
    rw [encode, List.flatMap_cons, decodeFrom_utf8EncodeChar]
    rw [show rest.flatMap String.utf8EncodeChar = encode rest from rfl, ih]
    rfl

/-- **Bytes that have been written can be read**, and give the text that was written. -/
theorem decode_encode (t : Text) : decode (encode t) = .ok t := decodeFrom_encode t 0

end Utf8

end RobotMaze
