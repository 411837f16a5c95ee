import Reckoner.Proofs.Text.Joined
import Reckoner.Text.Utf8

/-! Decoding what was encoded.  The first byte of a character tells how many bytes follow it and
between which bounds the next one lies, and the bytes of each character keep to this. -/

namespace Reckoner.Utf8

/-! ### First bytes and the bytes after them -/

/-- A byte within a character has six bits after its mark. -/
theorem byte_spec : ∀ x < 64, ((0x80 : UInt8) ≤ (0x80 + x).toUInt8 ∧
    (0x80 + x).toUInt8 ≤ (0xbf : UInt8)) ∧ (0x80 + x).toUInt8.toNat - 0x80 = x := by decide

theorem byte_ge_a0 : ∀ x < 64, 0x20 ≤ x → (0xa0 : UInt8) ≤ (0x80 + x).toUInt8 := by decide

theorem byte_le_9f : ∀ x < 64, x < 0x20 → (0x80 + x).toUInt8 ≤ (0x9f : UInt8) := by decide

theorem byte_ge_90 : ∀ x < 64, 0x10 ≤ x → (0x90 : UInt8) ≤ (0x80 + x).toUInt8 := by decide

theorem byte_le_8f : ∀ x < 64, x < 0x10 → (0x80 + x).toUInt8 ≤ (0x8f : UInt8) := by decide

theorem following?_one : ∀ n < 0x80, following? n.toUInt8 = some (0, 0x80, 0xbf) ∧
    n.toUInt8.toNat = n := by decide

theorem following?_two : ∀ k < 32, 2 ≤ k → following? (0xc0 + k).toUInt8 = some (1, 0x80, 0xbf) ∧
    (0xc0 + k).toUInt8.toNat - 0xc0 = k := by decide

theorem following?_three : ∀ k < 16, following? (0xe0 + k).toUInt8 =
    some (2, if k = 0 then 0xa0 else 0x80, if k = 13 then 0x9f else 0xbf) ∧
    (0xe0 + k).toUInt8.toNat - 0xe0 = k := by decide

theorem following?_four : ∀ k < 5, following? (0xf0 + k).toUInt8 =
    some (3, if k = 0 then 0x90 else 0x80, if k = 4 then 0x8f else 0xbf) ∧
    (0xf0 + k).toUInt8.toNat - 0xf0 = k := by decide

section Next

variable {first low high b c d : UInt8} {rest : Bytes}

theorem next_one (h : following? first = some (0, low, high)) :
    next first rest = (.ok (Char.ofNat first.toNat), rest) := by
  have hmore : continuation 0 low high rest = [] := by cases rest <;> rfl
  rw [next, h]
  simp [hmore, codePoint]

theorem next_two (h : following? first = some (1, low, high)) (hb : low ≤ b ∧ b ≤ high) :
    next first (b :: rest) =
      (.ok (Char.ofNat ((first.toNat - 0xc0) * 64 + (b.toNat - 0x80))), rest) := by
  have hmore : continuation 1 low high (b :: rest) = [b] := by
    cases rest <;> simp [continuation, hb]
  rw [next, h]
  simp [hmore, codePoint]

theorem next_three (h : following? first = some (2, low, high)) (hb : low ≤ b ∧ b ≤ high)
    (hc : 0x80 ≤ c ∧ c ≤ 0xbf) : next first (b :: c :: rest) =
      (.ok (Char.ofNat (((first.toNat - 0xe0) * 64 + (b.toNat - 0x80)) * 64 +
        (c.toNat - 0x80))), rest) := by
  have hmore : continuation 2 low high (b :: c :: rest) = [b, c] := by
    cases rest <;> simp [continuation, hb, hc]
  rw [next, h]
  simp [hmore, codePoint]

theorem next_four (h : following? first = some (3, low, high)) (hb : low ≤ b ∧ b ≤ high)
    (hc : 0x80 ≤ c ∧ c ≤ 0xbf) (hd : 0x80 ≤ d ∧ d ≤ 0xbf) : next first (b :: c :: d :: rest) =
      (.ok (Char.ofNat ((((first.toNat - 0xf0) * 64 + (b.toNat - 0x80)) * 64 +
        (c.toNat - 0x80)) * 64 + (d.toNat - 0x80))), rest) := by
  have hmore : continuation 3 low high (b :: c :: d :: rest) = [b, c, d] := by
    cases rest <;> simp [continuation, hb, hc, hd]
  rw [next, h]
  simp [hmore, codePoint]

end Next

/-- A character is the first one of a text that starts with its bytes. -/
theorem next_encodeChar (c : Char) (rest : Bytes) : ∃ first more,
    encodeChar c ++ rest = first :: more ∧ next first more = (.ok c, rest) := by
  have hc : c = Char.ofNat c.toNat := (Char.ofNat_toNat c).symm
  have hrange := toNat_lt c
  obtain ⟨n, hn⟩ : ∃ n, n = c.toNat := ⟨_, rfl⟩
  rw [encodeChar, ← hn]
  rw [← hn] at hc hrange
  split
  case isTrue hone =>
    obtain ⟨hfollowing, hnat⟩ := following?_one n hone
    refine ⟨_, rest, rfl, ?_⟩
    rw [next_one hfollowing, hnat, ← hc]
  case isFalse hone =>
    split
    case isTrue htwo =>
      obtain ⟨hfollowing, hlead⟩ := following?_two (n / 64) (by omega) (by omega)
      obtain ⟨hb, hbvalue⟩ := byte_spec (n % 64) (by omega)
      refine ⟨_, _ :: rest, rfl, ?_⟩
      rw [next_two hfollowing hb, hlead, hbvalue,
        show n / 64 * 64 + n % 64 = n by omega, ← hc]
    case isFalse htwo =>
      split
      case isTrue hthree =>
        obtain ⟨hfollowing, hlead⟩ := following?_three (n / 4096) (by omega)
        obtain ⟨hb, hbvalue⟩ := byte_spec (n / 64 % 64) (by omega)
        obtain ⟨hd, hdvalue⟩ := byte_spec (n % 64) (by omega)
        refine ⟨_, _ :: _ :: rest, rfl, ?_⟩
        rw [next_three hfollowing ?_ hd, hlead, hbvalue, hdvalue,
          show (n / 4096 * 64 + n / 64 % 64) * 64 + n % 64 = n by omega, ← hc]
        constructor
        · split
          case isTrue => exact byte_ge_a0 _ (by omega) (by omega)
          case isFalse => exact hb.1
        · split
          case isTrue => exact byte_le_9f _ (by omega) (by omega)
          case isFalse => exact hb.2
      case isFalse hthree =>
        obtain ⟨hfollowing, hlead⟩ := following?_four (n / 262144) (by omega)
        obtain ⟨hb, hbvalue⟩ := byte_spec (n / 4096 % 64) (by omega)
        obtain ⟨hd, hdvalue⟩ := byte_spec (n / 64 % 64) (by omega)
        obtain ⟨he, hevalue⟩ := byte_spec (n % 64) (by omega)
        refine ⟨_, _ :: _ :: _ :: rest, rfl, ?_⟩
        rw [next_four hfollowing ?_ hd he, hlead, hbvalue, hdvalue, hevalue,
          show ((n / 262144 * 64 + n / 4096 % 64) * 64 + n / 64 % 64) * 64 + n % 64 = n by omega,
          ← hc]
        constructor
        · split
          case isTrue => exact byte_ge_90 _ (by omega) (by omega)
          case isFalse => exact hb.1
        · split
          case isTrue => exact byte_le_8f _ (by omega) (by omega)
          case isFalse => exact hb.2

theorem decodeFrom_encode (position : ℕ) (s : Text) : decodeFrom position (encode s) = .ok s := by
  induction s generalizing position with
  | nil => rw [encode, List.flatMap_nil, decodeFrom]
  | cons c s ih =>
    obtain ⟨first, more, hbytes, hnext⟩ := next_encodeChar c (encode s)
    have hencode : encode (c :: s) = first :: more := hbytes
    rw [hencode, decodeFrom]
    split
    case h_1 heq =>
      rw [hnext] at heq
      cases heq
    case h_2 heq =>
      rw [hnext] at heq
      cases heq
      rw [ih]
      rfl

/-- The bytes of a text stand for it. -/
theorem decode_encode (s : Text) : decode (encode s) = .ok s := decodeFrom_encode 0 s

end Reckoner.Utf8
