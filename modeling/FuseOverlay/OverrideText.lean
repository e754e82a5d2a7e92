import Mathlib.Data.List.TakeWhile
import FuseOverlay.Requests

namespace FuseOverlay

/-!
# The text of an override

`setattr` renders owner, group and mode; the parsers read the numbers back.
-/

namespace Override

/-! ## Numbers -/

section Digits

variable {base : Nat}

/-- Every digit of a number is below its base. -/
theorem digit_lt_base
    (low : 1 < base)
    (high : base ≤ 10)
    {number : Nat}
    {digit : Char}
    (among : digit ∈ Nat.toDigits base number) :
    48 ≤ digit.toNat ∧ digit.toNat < 48 + base := by
  induction number using Nat.strongRecOn with
  | ind number inductionHypothesis =>
      have single :
          ∀ {value}, value < base → digit = value.digitChar →
            48 ≤ digit.toNat ∧ digit.toNat < 48 + base := by
        rintro value below rfl
        have atMost := Nat.toNat_digitChar_sub_48_of_lt_ten
          (Nat.lt_of_lt_of_le below high)
        have isDigit :
            (value.digitChar).isDigit = true := by
          apply Nat.isDigit_of_mem_toDigits (by omega) high
          rw [Nat.toDigits_of_lt_base below]
          exact List.mem_singleton.mpr rfl
        simp only [Char.isDigit, Bool.and_eq_true, decide_eq_true_eq] at isDigit
        have least : 48 ≤ (value.digitChar).toNat := isDigit.1
        omega
      rw [Nat.toDigits_eq_if low] at among
      split at among
      · next below =>
          exact single below (List.mem_singleton.mp among)
      · next above =>
          rcases List.mem_append.mp among with front | last
          · exact inductionHypothesis (number / base)
              (Nat.div_lt_self (by omega) low) front
          · exact single (Nat.mod_lt _ (by omega)) (List.mem_singleton.mp last)

/-- The byte of a digit -/
theorem toNat_digit
    {digit : Char}
    (below : digit.toNat < 256) :
    digit.val.toUInt8.toNat = digit.toNat := by
  rw [UInt32.toNat_toUInt8]
  exact Nat.mod_eq_of_lt below

theorem parseDigits_digits
    {digits : List Char}
    (among :
      ∀ digit ∈ digits, 48 ≤ digit.toNat ∧ digit.toNat < 48 + base)
    (high : base ≤ 10)
    (acc : Nat) :
    parseDigits base acc (digits.map fun digit => digit.val.toUInt8) =
      some (Nat.ofDigitChars base digits acc) := by
  induction digits generalizing acc with
  | nil =>
      rw [List.map_nil, parseDigits, Nat.ofDigitChars_nil]
  | cons digit rest inductionHypothesis =>
      obtain ⟨least, most⟩ := among digit (List.mem_cons_self)
      have byte := toNat_digit (show digit.toNat < 256 by omega)
      have isDigit :
          48 ≤ digit.val.toUInt8 ∧ digit.val.toUInt8.toNat < 48 + base := by
        rw [UInt8.le_iff_toNat_le, byte]
        exact ⟨least, most⟩
      rw [List.map_cons, parseDigits, if_pos isDigit, byte,
        inductionHypothesis fun other inRest =>
          among other (List.mem_cons_of_mem digit inRest),
        Nat.ofDigitChars_cons, Nat.mul_comm]
      rfl

/-- A rendered number is read back in the same base. -/
theorem parseU32_renderNumber
    (low : 1 < base)
    (high : base ≤ 10)
    (value : UInt32) :
    parseU32 base (Syscall.renderNumber base value) = some value := by
  have digits :
      ∀ digit ∈ Nat.toDigits base value.toNat,
        48 ≤ digit.toNat ∧ digit.toNat < 48 + base :=
    fun digit among => digit_lt_base low high among
  have noSign :
      (Syscall.renderNumber base value).head? ≠ some 43 := by
    intro signed
    obtain ⟨digit, among, isSign⟩ :=
      List.mem_map.mp (List.mem_of_mem_head? signed)
    have byte := toNat_digit
      (show digit.toNat < 256 by have := digits digit among; omega)
    rw [isSign] at byte
    have least := (digits digit among).1
    rw [← byte] at least
    revert least
    decide
  have filled : (Syscall.renderNumber base value).isEmpty = false := by
    unfold Syscall.renderNumber
    rw [List.isEmpty_map, List.isEmpty_eq_false_iff]
    exact Nat.toDigits_ne_nil
  unfold parseU32
  simp only [if_neg noSign, filled, Bool.false_eq_true, ↓reduceIte]
  unfold Syscall.renderNumber
  rw [parseDigits_digits digits high, Nat.ofDigitChars_toDigits low high]
  simp only [value.toNat_lt, ↓reduceIte]
  rw [show value.toNat.toUInt32 = value from UInt32.ofNat_toNat]

/-- The bytes of a rendered number are digits. -/
theorem renderNumber_bytes
    (low : 1 < base)
    (high : base ≤ 10)
    {value : UInt32}
    {byte : UInt8}
    (among : byte ∈ Syscall.renderNumber base value) :
    48 ≤ byte.toNat ∧ byte.toNat < 58 := by
  obtain ⟨digit, isDigit, rfl⟩ := List.mem_map.mp among
  obtain ⟨least, most⟩ := digit_lt_base low high isDigit
  rw [toNat_digit (by omega)]
  exact ⟨least, by omega⟩

theorem renderNumber_length
    {count : Nat}
    (low : 1 < base)
    (some : 0 < count)
    (enough : 2 ^ 32 ≤ base ^ count)
    (value : UInt32) :
    (Syscall.renderNumber base value).length ≤ count := by
  unfold Syscall.renderNumber
  rw [List.length_map, Nat.length_toDigits_le_iff low some]
  exact Nat.lt_of_lt_of_le value.toNat_lt enough

end Digits

/-! ## The whole text -/

/-- A field ends at the first colon. -/
theorem splitFields_cons
    {field rest : List UInt8}
    (noColon : ∀ byte ∈ field, byte ≠ 58)
    (count : Nat) :
    splitFields (count + 2) (field ++ 58 :: rest) =
      field :: splitFields (count + 1) rest := by
  have passes : ∀ byte ∈ field, decide (byte ≠ 58) = true :=
    fun byte among => decide_eq_true (noColon byte among)
  rw [splitFields, List.dropWhile_append_of_pos passes,
    List.takeWhile_append_of_pos passes]
  simp

theorem splitFields_last
    {field : List UInt8}
    (noColon : ∀ byte ∈ field, byte ≠ 58)
    (count : Nat) :
    splitFields (count + 1) field = [field] := by
  cases count with
  | zero =>
      rfl
  | succ count =>
      have passes : field.dropWhile (fun byte => decide (byte ≠ 58)) = [] :=
        List.dropWhile_eq_nil_iff.mpr fun byte among =>
          decide_eq_true (noColon byte among)
      rw [splitFields, passes]

section Rendered

variable (uid gid mode : UInt32)

theorem splitFields_renderOverride :
    splitFields 4 (Syscall.renderOverride uid gid mode) =
      [Syscall.renderNumber 10 uid, Syscall.renderNumber 10 gid,
        Syscall.renderNumber 8 mode] := by
  have noColon :
      ∀ {base value}, 1 < base → base ≤ 10 →
        ∀ byte ∈ Syscall.renderNumber base value, byte ≠ 58 := by
    rintro base value low high byte among rfl
    have below := (renderNumber_bytes low high among).2
    revert below
    decide
  unfold Syscall.renderOverride
  rw [List.append_assoc, List.cons_append,
    splitFields_cons (noColon (by decide) (by decide)),
    splitFields_cons (noColon (by decide) (by decide)),
    splitFields_last (noColon (by decide) (by decide))]

/-- What `setattr` writes is read back, with the type of the object. -/
theorem parseAndApplyOverride_renderOverride
    (st : Stat) :
    parseAndApplyOverride (Syscall.renderOverride uid gid mode) st =
      .ok { st with
        uid := uid
        gid := gid
        mode := .ofBits (mode ||| st.mode.typeBits) } := by
  unfold parseAndApplyOverride
  rw [splitFields_renderOverride]
  simp only [parseU32_renderNumber (show 1 < 10 by decide) (by decide),
    parseU32_renderNumber (show 1 < 8 by decide) (by decide), overriddenMode]

/-- It fits the buffer that it is read into. -/
theorem renderOverride_length :
    (Syscall.renderOverride uid gid mode).length ≤ 64 := by
  have owner := @renderNumber_length 10 10 (by decide) (by decide) (by decide)
  have octal := @renderNumber_length 8 11 (by decide) (by decide) (by decide)
    mode
  have first := owner uid
  have second := owner gid
  unfold Syscall.renderOverride
  rw [List.length_append, List.length_append, List.length_cons,
    List.length_cons]
  omega

end Rendered

/-- Plain characters are text. -/
theorem isUtf8_of_ascii
    {bytes : List UInt8}
    (plain : ∀ byte ∈ bytes, byte.toNat < 128) :
    isUtf8 bytes = true := by
  unfold isUtf8
  rw [ByteArray.validateUTF8_eq_true_iff]
  induction bytes using List.reverseRecOn with
  | nil =>
      exact ByteArray.isValidUTF8_empty
  | append_singleton front last inductionHypothesis =>
      have small := plain last (by simp)
      have isValid := inductionHypothesis fun byte among =>
        plain byte (List.mem_append_left _ among)
      have one : (Char.ofUInt8 last).utf8Size = 1 := by
        rw [Char.utf8Size_eq_one_iff, UInt32.le_iff_toNat_le]
        change last.toUInt32.toNat ≤ 127
        rw [UInt8.toNat_toUInt32]
        omega
      have pushed := isValid.push one
      rw [show (Char.ofUInt8 last).toUInt8 = last from
        UInt8.toUInt8_toUInt32 last] at pushed
      have asPush :
          ByteArray.mk (front ++ [last]).toArray =
            (ByteArray.mk front.toArray).push last :=
        congrArg ByteArray.mk (List.push_toArray front last).symm
      rw [asPush]
      exact pushed

theorem isUtf8_renderOverride
    (uid gid mode : UInt32) :
    isUtf8 (Syscall.renderOverride uid gid mode) = true := by
  have digits :
      ∀ {base value byte}, 1 < base → base ≤ 10 →
        byte ∈ Syscall.renderNumber base value → byte.toNat < 128 := by
    intro base value byte low high among
    have below := (renderNumber_bytes low high among).2
    omega
  apply isUtf8_of_ascii
  intro byte among
  unfold Syscall.renderOverride at among
  simp only [List.mem_append, List.mem_cons] at among
  rcases among with (first | rfl | second) | rfl | third
  · exact digits (by decide) (by decide) first
  · decide
  · exact digits (by decide) (by decide) second
  · decide
  · exact digits (by decide) (by decide) third

end Override

end FuseOverlay
