import Flydocs.Interfaces.Base64

/-!
# Base64 encoding

`base64.b64encode`, in groups of three bytes.  Both decoders take an encoded
text back, and what the strict one accepts has as many characters as the
encoding of its bytes.
-/

namespace Flydocs

namespace Base64

def alphabet (bits : Nat) : Char :=
  if bits < 26 then Char.ofNat (65 + bits)
  else if bits < 52 then Char.ofNat (97 + (bits - 26))
  else if bits < 62 then Char.ofNat (48 + (bits - 52))
  else if bits = 62 then '+'
  else '/'

theorem value?_alphabet : ∀ bits < 64, value? (alphabet bits) = some bits := by
  decide

theorem alphabet_ne_pad : ∀ bits < 64, alphabet bits ≠ '=' := by
  decide

def encode : List UInt8 → List Char
  | [] => []
  | [first] =>
      [alphabet (first.toNat / 4), alphabet (first.toNat % 4 * 16), '=', '=']
  | [first, second] =>
      [alphabet (first.toNat / 4),
        alphabet (first.toNat % 4 * 16 + second.toNat / 16),
        alphabet (second.toNat % 16 * 4), '=']
  | first :: second :: third :: bytes =>
      alphabet (first.toNat / 4) ::
        alphabet (first.toNat % 4 * 16 + second.toNat / 16) ::
        alphabet (second.toNat % 16 * 4 + third.toNat / 64) ::
        alphabet (third.toNat % 64) :: encode bytes

def b64encode (bytes : List UInt8) : String := String.ofList (encode bytes)

/-! ## The strict decoder and the lenient one -/

theorem a2bBase64_of_strict {quantum : Quantum} {padded : Bool}
    {decoded bytes : List UInt8} {chars : List Char}
    (h : a2bBase64Strict quantum padded decoded chars = .ok bytes) :
    a2bBase64 quantum decoded chars = .ok bytes := by
  induction chars generalizing quantum padded decoded with
  | nil => exact h
  | cons char chars ih =>
      rw [a2bBase64Strict] at h
      rw [a2bBase64]
      split at h
      next hpad =>
        rw [if_pos hpad]
        split at h
        · cases h
        next hzero =>
          split at h
          next hone =>
            rw [if_pos (by omega)]
            exact ih h
          next hone =>
            rw [if_neg (by omega)]
            split at h
            next hfull =>
              rw [if_pos hfull]
              split at h
              · exact h
              · cases h
            next hopen =>
              rw [if_neg hopen]
              exact ih h
      next hpad =>
        rw [if_neg hpad]
        split at h
        · cases h
        next bits hbits =>
          split at h
          · cases h
          · exact ih h

theorem b64decode_of_strict {text : String} {bytes : List UInt8}
    (h : b64decodeStrict text = .ok bytes) : b64decode text = .ok bytes := by
  unfold b64decodeStrict at h
  unfold b64decode
  split at h
  next hascii =>
    rw [if_pos hascii]
    exact a2bBase64_of_strict h
  next => cases h

/-! ## How many characters are accepted -/

theorem length_of_padded (quantum : Quantum) {decoded bytes : List UInt8}
    {chars : List Char} (hpos : 0 < quantum.quadPos)
    (hopen : quantum.quadPos + quantum.pads < 4)
    (h : a2bBase64Strict quantum true decoded chars = .ok bytes) :
    bytes = decoded.reverse ∧ 2 ≤ quantum.quadPos ∧
      quantum.quadPos + quantum.pads + chars.length = 4 := by
  induction chars generalizing quantum with
  | nil =>
      rw [a2bBase64Strict, a2bBase64, if_neg (by omega)] at h
      split at h <;> cases h
  | cons char chars ih =>
      rw [a2bBase64Strict] at h
      split at h
      · rw [if_neg (by omega)] at h
        split at h
        next hone => exact absurd (ih quantum hpos hopen h).2.1 (by omega)
        next hone =>
          split at h
          next hfull =>
            split at h
            next hnil =>
              cases h
              rw [hnil]
              exact ⟨rfl, by omega, by simp only [List.length_singleton]; omega⟩
            next => cases h
          next hmore =>
            obtain ⟨hbytes, hquad, hlength⟩ :=
              ih { quantum with pads := quantum.pads + 1 } hpos
                (by dsimp only; omega) h
            refine ⟨hbytes, hquad, ?_⟩
            dsimp only at hlength
            rw [List.length_cons]
            omega
      · split at h
        · cases h
        · rw [if_pos rfl] at h
          cases h

/-- What is still to come, counted in quarters of a byte. -/
theorem length_of_open (quantum : Quantum) {decoded bytes : List UInt8}
    {chars : List Char} (hpads : quantum.pads = 0)
    (hlt : quantum.quadPos < 4)
    (h : a2bBase64Strict quantum false decoded chars = .ok bytes) :
    ∃ pads ≤ 2, decoded.length ≤ bytes.length ∧
      4 * (bytes.length - decoded.length + (quantum.quadPos - 1) + pads) =
        3 * (quantum.quadPos + chars.length) := by
  induction chars generalizing quantum decoded with
  | nil =>
      rw [a2bBase64Strict, a2bBase64] at h
      split at h
      next hzero =>
        cases h
        exact ⟨0, by omega, by simp, by simp [hzero]⟩
      next => split at h <;> cases h
  | cons char chars ih =>
      rw [a2bBase64Strict] at h
      split at h
      · split at h
        · cases h
        next hzero =>
          split at h
          next hone =>
            have hpadded := length_of_padded quantum (by omega) (by omega) h
            omega
          next hone =>
            split at h
            next hfull =>
              split at h
              next hnil =>
                cases h
                refine ⟨1, by omega, by simp, ?_⟩
                rw [hnil, List.length_reverse, List.length_singleton]
                omega
              next => cases h
            next hmore =>
              obtain ⟨rfl, -, hlength⟩ := length_of_padded
                { quantum with pads := quantum.pads + 1 }
                (by dsimp only; omega) (by dsimp only; omega) h
              dsimp only at hlength
              refine ⟨2, le_rfl, by simp, ?_⟩
              rw [List.length_reverse, List.length_cons]
              omega
      · split at h
        · cases h
        next bits hbits =>
          rw [if_neg (by simp)] at h
          obtain ⟨quadPos, leftchar, pads⟩ := quantum
          rcases quadPos with _ | _ | _ | quadPos
          · obtain ⟨rest, hrest, hle, heq⟩ :=
              ih ⟨1, bits, 0⟩ rfl (by dsimp only; omega) h
            rw [List.nil_append] at hle heq
            refine ⟨rest, hrest, hle, ?_⟩
            rw [List.length_cons]
            dsimp only at heq ⊢
            omega
          · obtain ⟨rest, hrest, hle, heq⟩ :=
              ih ⟨2, _, 0⟩ rfl (by dsimp only; omega) h
            rw [List.length_append, List.length_singleton] at hle heq
            refine ⟨rest, hrest, by omega, ?_⟩
            rw [List.length_cons]
            dsimp only at heq ⊢
            omega
          · obtain ⟨rest, hrest, hle, heq⟩ :=
              ih ⟨3, _, 0⟩ rfl (by dsimp only; omega) h
            rw [List.length_append, List.length_singleton] at hle heq
            refine ⟨rest, hrest, by omega, ?_⟩
            rw [List.length_cons]
            dsimp only at heq ⊢
            omega
          · obtain ⟨rest, hrest, hle, heq⟩ :=
              ih ⟨0, 0, 0⟩ rfl (by dsimp only; omega) h
            rw [List.length_append, List.length_singleton] at hle heq
            refine ⟨rest, hrest, by omega, ?_⟩
            rw [List.length_cons]
            dsimp only at heq hlt ⊢
            omega

theorem length_of_strict {text : String} {bytes : List UInt8}
    (h : b64decodeStrict text = .ok bytes) :
    text.length = 4 * ((bytes.length + 2) / 3) := by
  unfold b64decodeStrict at h
  split at h
  · obtain ⟨pads, hpads, -, heq⟩ := length_of_open ⟨0, 0, 0⟩ rfl (by decide) h
    rw [String.length_toList] at heq
    simp only [List.length_nil] at heq
    omega
  · cases h

/-! ## The round trip -/

theorem strict_alphabet (quantum : Quantum) (decoded : List UInt8)
    (chars : List Char) {bits : Nat} (hbits : bits < 64) :
    a2bBase64Strict quantum false decoded (alphabet bits :: chars) =
      a2bBase64Strict (quantum.push bits).1 false
        ((quantum.push bits).2 ++ decoded) chars := by
  rw [a2bBase64Strict, if_neg (alphabet_ne_pad bits hbits),
    value?_alphabet bits hbits]
  rfl

theorem ofNat_eq {byte : UInt8} {number : Nat} (h : number = byte.toNat) :
    UInt8.ofNat number = byte := by
  rw [h, UInt8.ofNat_toNat]

theorem strict_encode (bytes decoded : List UInt8) :
    a2bBase64Strict ⟨0, 0, 0⟩ false decoded (encode bytes) =
      .ok (decoded.reverse ++ bytes) := by
  induction bytes using encode.induct generalizing decoded with
  | case1 => simp [encode, a2bBase64Strict, a2bBase64]
  | case2 first =>
      have hfirst := first.toNat_lt
      have hbyte : UInt8.ofNat (first.toNat / 4 * 4 +
          first.toNat % 4 * 16 / 16) = first := ofNat_eq (by omega)
      rw [encode, strict_alphabet _ _ _ (by omega),
        strict_alphabet _ _ _ (by omega)]
      simp only [Quantum.push, hbyte]
      simp [a2bBase64Strict]
  | case3 first second =>
      have hfirst := first.toNat_lt
      have hsecond := second.toNat_lt
      have hbyte : UInt8.ofNat (first.toNat / 4 * 4 +
          (first.toNat % 4 * 16 + second.toNat / 16) / 16) = first :=
        ofNat_eq (by omega)
      have hnext : UInt8.ofNat ((first.toNat % 4 * 16 + second.toNat / 16) %
          16 * 16 + second.toNat % 16 * 4 / 4) = second := ofNat_eq (by omega)
      rw [encode, strict_alphabet _ _ _ (by omega),
        strict_alphabet _ _ _ (by omega), strict_alphabet _ _ _ (by omega)]
      simp only [Quantum.push, hbyte, hnext]
      simp [a2bBase64Strict]
  | case4 first second third bytes ih =>
      have hfirst := first.toNat_lt
      have hsecond := second.toNat_lt
      have hthird := third.toNat_lt
      have hbyte : UInt8.ofNat (first.toNat / 4 * 4 +
          (first.toNat % 4 * 16 + second.toNat / 16) / 16) = first :=
        ofNat_eq (by omega)
      have hnext : UInt8.ofNat ((first.toNat % 4 * 16 + second.toNat / 16) %
          16 * 16 + (second.toNat % 16 * 4 + third.toNat / 64) / 4) = second :=
        ofNat_eq (by omega)
      have hlast : UInt8.ofNat ((second.toNat % 16 * 4 + third.toNat / 64) %
          4 * 64 + third.toNat % 64) = third := ofNat_eq (by omega)
      rw [encode, strict_alphabet _ _ _ (by omega),
        strict_alphabet _ _ _ (by omega), strict_alphabet _ _ _ (by omega),
        strict_alphabet _ _ _ (by omega)]
      simp only [Quantum.push, hbyte, hnext, hlast]
      rw [ih]
      simp

theorem alphabet_ascii : ∀ bits < 64, (alphabet bits).toNat < 128 := by
  decide

theorem ascii_of_mem_encode {bytes : List UInt8} {char : Char}
    (h : char ∈ encode bytes) : char.toNat < 128 := by
  induction bytes using encode.induct with
  | case1 => simp [encode] at h
  | case2 first =>
      have hfirst := first.toNat_lt
      simp only [encode, List.mem_cons, List.not_mem_nil, or_false] at h
      rcases h with rfl | rfl | rfl | rfl
      · exact alphabet_ascii _ (by omega)
      · exact alphabet_ascii _ (by omega)
      · decide
      · decide
  | case3 first second =>
      have hfirst := first.toNat_lt
      have hsecond := second.toNat_lt
      simp only [encode, List.mem_cons, List.not_mem_nil, or_false] at h
      rcases h with rfl | rfl | rfl | rfl
      · exact alphabet_ascii _ (by omega)
      · exact alphabet_ascii _ (by omega)
      · exact alphabet_ascii _ (by omega)
      · decide
  | case4 first second third bytes ih =>
      have hfirst := first.toNat_lt
      have hsecond := second.toNat_lt
      have hthird := third.toNat_lt
      simp only [encode, List.mem_cons] at h
      rcases h with rfl | rfl | rfl | rfl | h
      · exact alphabet_ascii _ (by omega)
      · exact alphabet_ascii _ (by omega)
      · exact alphabet_ascii _ (by omega)
      · exact alphabet_ascii _ (by omega)
      · exact ih h

theorem b64decodeStrict_b64encode (bytes : List UInt8) :
    b64decodeStrict (b64encode bytes) = .ok bytes := by
  have hascii : (b64encode bytes).toList.all (·.toNat < 128) = true := by
    rw [List.all_eq_true, b64encode, String.toList_ofList]
    exact fun char hchar => decide_eq_true (ascii_of_mem_encode hchar)
  rw [b64decodeStrict, if_pos hascii, b64encode, String.toList_ofList,
    strict_encode, List.reverse_nil, List.nil_append]

end Base64

end Flydocs
