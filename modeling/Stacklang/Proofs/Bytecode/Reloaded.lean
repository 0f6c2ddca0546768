import Mathlib
import Stacklang.Bytecode.Snapshot

namespace Stacklang

def Template.WordSized (template : Template) : Prop :=
  template.code.size < 2 ^ 64 ∧ template.locals < 2 ^ 64 ∧ template.parameters < 2 ^ 64

def Constant.WordSized : Constant → Prop
  | integer _ => True
  | string text => text.utf8ByteSize < 2 ^ 64
  | function template => template.WordSized

/-- Every length and every number of slots is one of 64 bits. -/
structure Bytecode.WordSized (bytecode : Bytecode) : Prop where
  code : bytecode.code.size < 2 ^ 64
  number : bytecode.constants.size < 2 ^ 64
  constants : ∀ constant ∈ bytecode.constants, constant.WordSized

instance : DecidablePred Template.WordSized := fun template =>
  inferInstanceAs (Decidable (template.code.size < 2 ^ 64 ∧ _ ∧ _))

instance : DecidablePred Constant.WordSized
  | .integer _ => .isTrue trivial
  | .string text => inferInstanceAs (Decidable (text.utf8ByteSize < 2 ^ 64))
  | .function template => inferInstanceAs (Decidable template.WordSized)

instance : DecidablePred Bytecode.WordSized := fun bytecode =>
  decidable_of_iff
    (bytecode.code.size < 2 ^ 64 ∧ bytecode.constants.size < 2 ^ 64 ∧
      ∀ constant ∈ bytecode.constants, constant.WordSized)
    ⟨fun ⟨code, number, constants⟩ => ⟨code, number, constants⟩,
      fun sized => ⟨sized.code, sized.number, sized.constants⟩⟩

namespace Snapshot

/-- The reader takes the value from bytes that begin with the written ones, and no byte more. -/
def Reads {α : Type} (reader : Reader α) (written : List UInt8) (value : α) : Prop :=
  ∀ rest, reader (written ++ rest) = .ok (value, rest)

/-- The digits go from low to high, so the last one that is allowed bounds the whole count. -/
theorem reads_count {top digits n : Nat} (htop : top < 128) (hn : n < (top + 1) * 128 ^ digits) :
    Reads (readCount top (digits + 1)) (count n) n := by
  intro rest
  induction digits generalizing n with
  | zero =>
      have hsmall : n < top + 1 := by simpa using hn
      have hbyte : n < 256 := by omega
      rw [count, if_pos (by omega), List.singleton_append, readCount,
        UInt8.toNat_ofNat_of_lt' hbyte, if_pos (by omega), if_neg (by omega)]
  | succ digits ih =>
      by_cases hsmall : n < 128
      · have hbyte : n < 256 := by omega
        rw [count, if_pos hsmall, List.singleton_append, readCount, UInt8.toNat_ofNat_of_lt' hbyte,
          if_pos hsmall, if_neg (by omega)]
      · have hbyte : n % 128 + 128 < 256 := by omega
        have hhigh : n / 128 < (top + 1) * 128 ^ digits := by
          apply Nat.div_lt_of_lt_mul
          rw [Nat.pow_succ] at hn
          calc n < (top + 1) * (128 ^ digits * 128) := hn
            _ = 128 * ((top + 1) * 128 ^ digits) := by
              rw [← Nat.mul_assoc, Nat.mul_comm]
        rw [count, if_neg hsmall, List.cons_append, readCount, UInt8.toNat_ofNat_of_lt' hbyte,
          if_neg (by omega), ih hhigh]
        dsimp only
        rw [show n % 128 + 128 - 128 + 128 * (n / 128) = n by omega]

theorem reads_word {n : Nat} (hn : n < 2 ^ 64) : Reads readWord (count n) n :=
  reads_count (by decide) (by omega)

theorem reads_halfWord {n : Nat} (hn : n < 2 ^ 32) : Reads readHalfWord (count n) n :=
  reads_count (by decide) (by omega)

theorem interleave_lt (value : Int64) : interleave value < 2 ^ 64 := by
  have hlow := value.le_toInt
  have hhigh := value.toInt_lt
  unfold interleave
  dsimp only
  split <;> omega

theorem uninterleave_interleave (value : Int64) : uninterleave (interleave value) = value := by
  have hplace : (if interleave value % 2 = 0 then ((interleave value / 2 : Nat) : Int)
      else -((interleave value / 2 : Nat) : Int) - 1) = value.toInt := by
    unfold interleave
    dsimp only
    split <;> split <;> omega
  rw [uninterleave, hplace, Int64.ofInt_toInt]

theorem reads_bytes (bytes : List UInt8) : Reads (readBytes bytes.length) bytes bytes := by
  intro rest
  simp [readBytes]

theorem reads_code {code : Code} (hsize : code.size < 2 ^ 64) :
    Reads readCode (Snapshot.code code) code := by
  intro rest
  rw [readCode, Snapshot.code, List.append_assoc, reads_word hsize]
  change (readBytes code.size (code.toList ++ rest) >>= _) = _
  rw [← Array.length_toList, reads_bytes]
  rfl

theorem toList_loop (bytes : ByteArray) (offset : Nat) (done : List UInt8) :
    ByteArray.toList.loop bytes offset done = done.reverse ++ bytes.data.toList.drop offset := by
  fun_induction ByteArray.toList.loop bytes offset done with
  | case1 offset done inside ih =>
      have hinside : offset < bytes.data.toList.length := inside
      have hbyte : bytes.get! offset = bytes.data.toList[offset] :=
        getElem!_pos bytes.data offset inside
      rw [ih, List.drop_eq_getElem_cons hinside, List.reverse_cons, List.append_assoc, hbyte]
      rfl
  | case2 offset done outside =>
      have houtside : bytes.data.toList.length ≤ offset := Nat.le_of_not_lt outside
      rw [List.drop_of_length_le houtside, List.append_nil]

theorem toList_bytes (bytes : ByteArray) : bytes.toList = bytes.data.toList :=
  toList_loop bytes 0 []

theorem fromUTF8?_toUTF8 (s : String) : String.fromUTF8? ⟨s.toUTF8.toList.toArray⟩ = some s := by
  rw [toList_bytes, Array.toArray_toList, String.toUTF8_eq_toByteArray, String.fromUTF8?,
    dif_pos s.isValidUTF8]
  rfl

theorem reads_text {s : String} (hsize : s.utf8ByteSize < 2 ^ 64) : Reads readText (text s) s := by
  intro rest
  have hlength : s.utf8ByteSize = s.toUTF8.toList.length := by
    rw [toList_bytes]
    rfl
  rw [readText, text, List.append_assoc, reads_word hsize]
  change (readBytes s.utf8ByteSize (s.toUTF8.toList ++ rest) >>= _) = _
  rw [hlength, reads_bytes]
  dsimp only [bind, Except.bind]
  rw [fromUTF8?_toUTF8]
  rfl

theorem reads_constant {constant : Constant} (hsized : constant.WordSized) :
    Reads readConstant (Snapshot.constant constant) constant := by
  intro rest
  cases constant with
  | integer value =>
      rw [readConstant, Snapshot.constant, List.append_assoc, reads_halfWord (by decide)]
      change (readWord (count (interleave value) ++ rest) >>= _) = _
      rw [reads_word (interleave_lt value)]
      change Except.ok (Constant.integer (uninterleave (interleave value)), rest) = _
      rw [uninterleave_interleave]
  | string s =>
      rw [readConstant, Snapshot.constant, List.append_assoc, reads_halfWord (by decide)]
      change (readText (text s ++ rest) >>= _) = _
      rw [reads_text hsized]
      rfl
  | function template =>
      obtain ⟨hcode, hlocals, hparameters⟩ := hsized
      rw [readConstant, Snapshot.constant]
      simp only [List.append_assoc]
      rw [reads_halfWord (by decide)]
      change (readCode (Snapshot.code template.code ++ _) >>= _) = _
      rw [reads_code hcode]
      change (readWord (count template.locals ++ _) >>= _) = _
      rw [reads_word hlocals]
      change (readWord (count template.parameters ++ _) >>= _) = _
      rw [reads_word hparameters]
      rfl

theorem reads_constants {constants : List Constant}
    (hsized : ∀ constant ∈ constants, constant.WordSized) (done : Array Constant) :
    Reads (readConstants done constants.length) (constants.flatMap Snapshot.constant)
      (done ++ constants.toArray) := by
  intro rest
  induction constants generalizing done with
  | nil => simp [readConstants]
  | cons constant constants ih =>
      rw [List.flatMap_cons, List.append_assoc, List.length_cons, readConstants,
        reads_constant (hsized constant (List.mem_cons_self ..))]
      dsimp only
      rw [ih fun later member => hsized later (List.mem_cons_of_mem _ member)]
      simp

theorem reads_bytecode {bytecode : Bytecode} (hsized : bytecode.WordSized) :
    Reads readBytecode bytecode.toBytes bytecode := by
  intro rest
  rw [readBytecode, Bytecode.toBytes]
  simp only [List.append_assoc]
  rw [reads_code hsized.code]
  change (readWord (count bytecode.constants.size ++ _) >>= _) = _
  rw [reads_word hsized.number]
  change (readConstants #[] bytecode.constants.size _ >>= _) = _
  rw [← Array.length_toList,
    reads_constants fun constant member => hsized.constants constant (Array.mem_def.mpr member)]
  change Except.ok (Bytecode.mk bytecode.code (#[] ++ bytecode.constants.toList.toArray), rest) = _
  rw [Array.toArray_toList, Array.empty_append]

end Snapshot

/-- A snapshot with any bytes behind it loads as the bytecode that was written, if that passes the
checks, and is refused for what the checks find in it, if not. -/
theorem Bytecode.ofBytes_toBytes {bytecode : Bytecode} (hsized : bytecode.WordSized)
    (trailing : List UInt8) :
    Bytecode.ofBytes (bytecode.toBytes ++ trailing) =
      match bytecode.verify with
      | .ok () => .ok bytecode
      | .error error => .error (.unverified error) := by
  rw [Bytecode.ofBytes, Snapshot.reads_bytecode hsized]
  dsimp only
  cases bytecode.verify with
  | ok _ => rfl
  | error error => rfl

/-- Bytes that a count could go on with stand behind the least integer, a letter of two bytes and a
function of 200 slots, and behind a function with more slots than any other. -/
theorem Bytecode.ofBytes_toBytes_extremes :
    let kept : Bytecode := ⟨#[0, 0, 0, 1],
      #[.integer Int64.minValue, .string "é", .function ⟨#[18, 199, 27], 200, 1⟩]⟩
    let refused : Bytecode := ⟨#[], #[.function ⟨#[], 2 ^ 64 - 1, 0⟩]⟩
    (kept.WordSized ∧ Bytecode.ofBytes (kept.toBytes ++ [255, 1]) = .ok kept) ∧
      refused.WordSized ∧ Bytecode.ofBytes (refused.toBytes ++ [255, 1]) =
        .error (.unverified ⟨.tooManyLocals (2 ^ 64 - 1), 0⟩) := by
  intro kept refused
  have hkept : kept.WordSized := by decide
  have hrefused : refused.WordSized := by decide
  have hverify : kept.verify = .ok () := by cbv
  have hfault : refused.verify = .error ⟨.tooManyLocals (2 ^ 64 - 1), 0⟩ := by cbv
  refine ⟨⟨hkept, ?_⟩, hrefused, ?_⟩
  · rw [ofBytes_toBytes hkept, hverify]
  · rw [ofBytes_toBytes hrefused, hfault]

end Stacklang
