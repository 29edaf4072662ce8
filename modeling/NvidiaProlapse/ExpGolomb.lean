import NvidiaProlapse.VideoCodec
import NvidiaProlapse.Programs

/-!
# Exp-Golomb codes

The bit reader of bits.rs reads the bits of its bytes from the highest one on. A value is coded
by as many zeros as the successor of the value has bits below its highest one, and then by that
successor; signed values are numbered first. The 64-bit sums are narrowed to 32 bits.
-/
namespace NvidiaProlapse.ExpGolomb

open Programs Video List

structure BitReader where
  data : List UInt8
  pos : ℕ
  deriving DecidableEq, Repr

/-! ## The reader -/

def bit : Prog BitReader VideoError ℕ := do
  let r ← get
  match r.data[r.pos >>> 3]? with
  | none => throw (.bitstream "read past the end of a NAL unit")
  | some byte => do
    modify fun r => { r with pos := r.pos + 1 }
    pure ((byte.toNat >>> (7 - (r.pos &&& 7))) &&& 1)

def uLoop : ℕ → ℕ → Prog BitReader VideoError ℕ
  | 0, v => pure v
  | n + 1, v => do
    let b ← bit
    uLoop n ((v <<< 1) ||| b)

def u (n : ℕ) : Prog BitReader VideoError ℕ := do
  let v ← uLoop n 0
  pure (v % 2 ^ 32)

def flag : Prog BitReader VideoError Bool := do
  let v ← u 1
  pure (decide (v ≠ 0))

/-- `left` is what remains of the 32 zeros that are too many. -/
def zeroFlags : ℕ → ℕ → Prog BitReader VideoError ℕ
  | 0, _ => throw (.bitstream "Exp-Golomb code longer than 32 bits")
  | left + 1, zeros => do
    let one ← flag
    if one then pure zeros else zeroFlags left (zeros + 1)

def ue : Prog BitReader VideoError ℕ := do
  let zeros ← zeroFlags 32 0
  if zeros = 0 then pure 0
  else do
    let v ← u zeros
    pure ((2 ^ zeros - 1 + v) % 2 ^ 32)

def se : Prog BitReader VideoError ℤ := do
  let k ← ue
  pure (if k &&& 1 = 1 then Int.bmod ((k + 1) / 2) (2 ^ 32) else Int.bmod (-(k / 2)) (2 ^ 32))

/-! ## Codes -/

/-- The lowest bits of a number, the highest of them first. -/
def binary (n x : ℕ) : List Bool := (range n).reverse.map x.testBit

/-- Bytes from their highest bits on. -/
def bits (data : List UInt8) : List Bool :=
  (range (8 * data.length)).map fun i => (data.getD (i / 8) 0).toNat.testBit (7 - i % 8)

def ueCode (v : ℕ) : List Bool :=
  replicate (v + 1).log2 false ++ true :: binary (v + 1).log2 (v + 1)

/-- The number of a signed value. -/
def codeNumber (v : ℤ) : ℕ := if 0 < v then (2 * v - 1).toNat else (-2 * v).toNat

def seCode (v : ℤ) : List Bool := ueCode (codeNumber v)

lemma binary_succ (n x : ℕ) : binary (n + 1) x = x.testBit n :: binary n x := by
  simp [binary, range_succ]

lemma getElem?_bits (data : List UInt8) (pos : ℕ) : (bits data)[pos]? =
    data[pos / 8]?.map fun byte => byte.toNat.testBit (7 - pos % 8) := by
  by_cases hpos : pos < 8 * data.length
  · have hbyte : pos / 8 < data.length := by omega
    simp [bits, hpos, hbyte]
  · have hbyte : data.length ≤ pos / 8 := by omega
    simp [bits, hpos, hbyte]

/-! ## Decoding -/

def BitReader.rest (r : BitReader) : List Bool := (bits r.data).drop r.pos

/-- The reader moves over these bits. -/
structure Moved (r : BitReader) (l : List Bool) (r' : BitReader) : Prop where
  next : r' = ⟨r.data, r.pos + l.length⟩
  rest : r.rest = l ++ r'.rest

/-- The program moves over bits of the data, whatever they are, and returns the value they are
the code of. It fails only where no code starts. -/
def Decodes {α : Type} (p : Prog BitReader VideoError α) (code : α → List Bool → Prop) : Prop :=
  ∀ r, ∃ l, Moved r l (exec p r).2 ∧
    ∀ a l', code a l' ∧ l' <+: r.rest ↔ (exec p r).1 = .ok a ∧ l' = l

variable {r r' r'' : BitReader} {l l' : List Bool} {n v x : ℕ} {α β : Type}
  {p : Prog BitReader VideoError α} {f : α → Prog BitReader VideoError β} {a : α}
  {code : α → List Bool → Prop} {code' : β → List Bool → Prop}

lemma Moved.refl (r : BitReader) : Moved r [] r := ⟨rfl, rfl⟩

lemma Moved.trans (h : Moved r l r') (h' : Moved r' l' r'') : Moved r (l ++ l') r'' := by
  constructor
  · rw [h'.next, h.next, length_append, Nat.add_assoc]
  · rw [h.rest, h'.rest, append_assoc]

lemma Moved.append_prefix (h : Moved r l r') : l ++ l' <+: r.rest ↔ l' <+: r'.rest := by
  rw [h.rest, prefix_append_right_inj]

namespace Decodes

lemma of_pure (h : ∀ b l, code b l ↔ b = a ∧ l = []) : Decodes (pure a) code := by
  refine fun r => ⟨[], .refl r, fun b l => ?_⟩
  constructor
  · rintro ⟨hb, -⟩
    obtain ⟨rfl, rfl⟩ := (h b l).mp hb
    exact ⟨rfl, rfl⟩
  · rintro ⟨⟨⟩, rfl⟩
    exact ⟨(h a []).mpr ⟨rfl, rfl⟩, nil_prefix⟩

lemma of_throw {e : VideoError} (h : ∀ a l, ¬ code a l) : Decodes (throw e) code := by
  refine fun r => ⟨[], .refl r, fun a l => ⟨fun ha => absurd ha.1 (h a l), ?_⟩⟩
  rintro ⟨⟨⟩, -⟩

lemma seq (h : Decodes p code) (hcode : ∀ b l, code' b l → ∃ a l', code a l' ∧ l' <+: l)
    (hf : ∀ a l, code a l → Decodes (f a) fun b l' => code' b (l ++ l')) :
    Decodes (p >>= f) code' := by
  intro r
  obtain ⟨l, hmoved, hp⟩ := h r
  rw [exec_bind]
  generalize exec p r = result at hmoved hp
  obtain ⟨_ | a, r'⟩ := result
  · refine ⟨l, hmoved, fun b l' => ⟨?_, ?_⟩⟩
    · rintro ⟨hb, hl'⟩
      obtain ⟨a, l₁, ha, hl₁⟩ := hcode b l' hb
      cases ((hp a l₁).mp ⟨ha, hl₁.trans hl'⟩).1
    · rintro ⟨⟨⟩, -⟩
  · obtain ⟨l', hmoved', hnext⟩ := hf a l ((hp a l).mpr ⟨rfl, rfl⟩).1 r'
    refine ⟨l ++ l', hmoved.trans hmoved', fun b l₁ => ⟨?_, ?_⟩⟩
    · rintro ⟨hb, hl₁⟩
      obtain ⟨a', l₂, ha', l₃, rfl⟩ := hcode b l₁ hb
      obtain ⟨⟨⟩, rfl⟩ := (hp a' l₂).mp ⟨ha', (prefix_append l₂ l₃).trans hl₁⟩
      obtain ⟨hok, rfl⟩ := (hnext b l₃).mp ⟨hb, hmoved.append_prefix.mp hl₁⟩
      exact ⟨hok, rfl⟩
    · rintro ⟨hok, rfl⟩
      obtain ⟨hb, hl'⟩ := (hnext b l').mpr ⟨hok, rfl⟩
      exact ⟨hb, hmoved.append_prefix.mpr hl'⟩

lemma map {g : α → β} (h : Decodes p code) (hcode : ∀ b l, code' b l ↔ ∃ a, code a l ∧ g a = b) :
    Decodes (p >>= fun a => pure (g a)) code' := by
  intro r
  obtain ⟨l, hmoved, hp⟩ := h r
  rw [exec_bind]
  generalize exec p r = result at hmoved hp
  obtain ⟨_ | a, r'⟩ := result
  all_goals refine ⟨l, hmoved, fun b l' => ?_⟩
  all_goals rw [hcode]
  all_goals constructor
  · rintro ⟨⟨a, ha, -⟩, hl'⟩
    cases ((hp a l').mp ⟨ha, hl'⟩).1
  · rintro ⟨⟨⟩, -⟩
  · rintro ⟨⟨a, ha, rfl⟩, hl'⟩
    obtain ⟨⟨⟩, rfl⟩ := (hp a l').mp ⟨ha, hl'⟩
    exact ⟨rfl, rfl⟩
  · rintro ⟨⟨⟩, rfl⟩
    obtain ⟨ha, hl'⟩ := (hp a l').mpr ⟨rfl, rfl⟩
    exact ⟨⟨a, ha, rfl⟩, hl'⟩

end Decodes

lemma bit_decodes : Decodes bit fun v l => ∃ b : Bool, v = b.toNat ∧ l = [b] := by
  intro r
  have hbyte : r.pos >>> 3 = r.pos / 8 := Nat.shiftRight_eq_div_pow _ 3
  have hoffset : r.pos &&& 7 = r.pos % 8 := Nat.and_two_pow_sub_one_eq_mod _ 3
  have hhead : r.rest.head? = _ := head?_drop.trans (getElem?_bits r.data r.pos)
  have hnext : BitReader.rest ⟨r.data, r.pos + 1⟩ = r.rest.tail := tail_drop.symm
  rw [bit, exec_bind, exec_get]
  dsimp only
  rw [hbyte, hoffset]
  cases hrest : r.rest with
  | nil =>
    rw [hrest] at hhead
    rw [Option.map_eq_none_iff.mp hhead.symm]
    refine ⟨[], .refl r, fun v l => ⟨?_, ?_⟩⟩
    · rintro ⟨⟨b, -, rfl⟩, hl⟩
      simp at hl
    · rintro ⟨⟨⟩, -⟩
  | cons b rest =>
    rw [hrest] at hhead hnext
    obtain ⟨byte, hread, rfl⟩ := Option.map_eq_some_iff.mp hhead.symm
    rw [hread]
    dsimp only
    rw [Nat.and_one_is_mod, Nat.shiftRight_eq_div_pow, ← Nat.toNat_testBit]
    refine ⟨[_], ⟨rfl, hrest.trans (congrArg (cons _) hnext.symm)⟩, fun v l => ?_⟩
    constructor
    · rintro ⟨⟨b, rfl, rfl⟩, hl⟩
      obtain rfl := (cons_prefix_cons.mp hl).1
      exact ⟨rfl, rfl⟩
    · rintro ⟨⟨⟩, rfl⟩
      exact ⟨⟨_, rfl, rfl⟩, rest, rfl⟩

lemma uLoop_decodes (n v : ℕ) : Decodes (uLoop n v) fun w l => w / 2 ^ n = v ∧ l = binary n w := by
  induction n generalizing v with
  | zero => exact .of_pure fun w l => by simp [binary]
  | succ n ih =>
    refine bit_decodes.seq ?_ ?_
    · rintro w _ ⟨-, rfl⟩
      exact ⟨_, _, ⟨w.testBit n, rfl, rfl⟩, _, (binary_succ n w).symm⟩
    · rintro _ _ ⟨b, rfl, rfl⟩
      convert ih ((v <<< 1) ||| b.toNat) using 3 with w l
      rw [binary_succ, ← Nat.shiftLeft_add_eq_or_of_lt b.toNat_lt, Nat.shiftLeft_eq, pow_succ,
        ← Nat.div_div_eq_div_mul, Nat.testBit_eq_decide_div_mod_eq]
      generalize w / 2 ^ n = high
      cases b <;> simp <;> grind

lemma u_decodes (hn : n ≤ 32) : Decodes (u n) fun v l => v < 2 ^ n ∧ l = binary n v := by
  refine (uLoop_decodes n 0).map fun v l => ?_
  have hle : 2 ^ n ≤ 2 ^ 32 := Nat.pow_le_pow_right two_pos hn
  constructor
  · rintro ⟨hv, rfl⟩
    exact ⟨v, ⟨Nat.div_eq_of_lt hv, rfl⟩, Nat.mod_eq_of_lt (hv.trans_le hle)⟩
  · rintro ⟨w, ⟨hw, rfl⟩, rfl⟩
    have hlt := Nat.lt_of_div_eq_zero (by positivity) hw
    rw [Nat.mod_eq_of_lt (hlt.trans_le hle)]
    exact ⟨hlt, rfl⟩

lemma flag_decodes : Decodes flag fun b l => l = [b] := by
  refine (u_decodes (by omega : 1 ≤ 32)).map fun b l => ?_
  constructor
  · rintro rfl
    exact ⟨b.toNat, ⟨b.toNat_lt, by cases b <;> rfl⟩, by cases b <;> rfl⟩
  · rintro ⟨v, ⟨hv, rfl⟩, rfl⟩
    interval_cases v <;> rfl

lemma zeroFlags_decodes (left zeros : ℕ) : Decodes (zeroFlags left zeros) fun z l =>
    ∃ k < left, z = zeros + k ∧ l = replicate k false ++ [true] := by
  induction left generalizing zeros with
  | zero => exact .of_throw (by simp)
  | succ left ih =>
    refine flag_decodes.seq ?_ ?_
    · rintro z _ ⟨k, -, -, rfl⟩
      cases k
      · exact ⟨_, _, rfl, prefix_rfl⟩
      · exact ⟨false, _, rfl, _, rfl⟩
    · rintro one _ rfl
      cases one with
      | true =>
        refine .of_pure fun z l => ?_
        constructor
        · rintro ⟨_ | k, -, rfl, hl⟩
          · exact ⟨rfl, by simpa using hl⟩
          · simp [replicate_succ] at hl
        · rintro ⟨rfl, rfl⟩
          exact ⟨0, by simp⟩
      | false =>
        show Decodes (zeroFlags left (zeros + 1)) _
        convert ih (zeros + 1) using 3 with z l
        constructor
        · rintro ⟨_ | k, hk, hz, hl⟩
          · simp at hl
          · exact ⟨k, by omega, by omega, by simpa [replicate_succ] using hl⟩
        · rintro ⟨k, hk, rfl, rfl⟩
          exact ⟨k + 1, by omega, by omega, by simp [replicate_succ]⟩

lemma unary_inj {k m : ℕ} : replicate k false ++ true :: l = replicate m false ++ true :: l' ↔
    k = m ∧ l = l' := by
  induction k generalizing m with
  | zero => cases m <;> simp [replicate_succ]
  | succ k ih => cases m <;> simp [replicate_succ, ih]

lemma binary_add (n v : ℕ) : binary n (2 ^ n + v) = binary n v := by
  refine map_congr_left fun i hi => ?_
  exact Nat.testBit_two_pow_add_gt (by simpa using hi) v

lemma ue_decodes : Decodes ue fun v l => v < 2 ^ 32 - 1 ∧ l = ueCode v := by
  refine (zeroFlags_decodes 32 0).seq ?_ ?_
  · rintro v _ ⟨hv, rfl⟩
    refine ⟨_, _, ⟨(v + 1).log2, ?_, rfl, rfl⟩, binary (v + 1).log2 (v + 1), ?_⟩
    · exact (Nat.log2_lt (by omega)).mpr (by omega)
    · rw [append_assoc]
      rfl
  · rintro _ _ ⟨k, hk, rfl, rfl⟩
    have hcode : ∀ v l, replicate k false ++ [true] ++ l = ueCode v ↔
        (2 ^ k ≤ v + 1 ∧ v + 1 < 2 ^ (k + 1)) ∧ l = binary k (v + 1) := by
      intro v l
      rw [append_assoc, ← Nat.log2_eq_iff (by omega), ueCode, singleton_append]
      refine unary_inj.trans ?_
      rw [eq_comm]
      exact and_congr_right fun h => by rw [h]
    have hle : 2 ^ (k + 1) ≤ 2 ^ 32 := Nat.pow_le_pow_right two_pos (by omega)
    simp only [hcode, zero_add]
    by_cases hzero : k = 0
    · subst hzero
      refine .of_pure fun v l => ?_
      simp [binary]
      omega
    · rw [if_neg hzero]
      refine (u_decodes (by omega : k ≤ 32)).map fun v l => ?_
      rw [pow_succ 2 k] at hle ⊢
      constructor
      · rintro ⟨hv, ⟨hlow, hhigh⟩, rfl⟩
        obtain ⟨w, hw⟩ := Nat.exists_eq_add_of_le hlow
        refine ⟨w, ⟨by omega, by rw [hw, binary_add]⟩, by omega⟩
      · rintro ⟨w, ⟨hw, rfl⟩, rfl⟩
        have hpos := Nat.two_pow_pos k
        have hsum : (2 ^ k - 1 + w) % 2 ^ 32 + 1 = 2 ^ k + w := by omega
        rw [hsum, binary_add]
        exact ⟨by omega, by omega, rfl⟩

lemma se_decodes : Decodes se fun v l => (-2 ^ 31 < v ∧ v < 2 ^ 31) ∧ l = seCode v := by
  refine ue_decodes.map fun v l => ?_
  simp only [Nat.and_one_is_mod, Int.bmod]
  constructor
  · rintro ⟨⟨hlow, hhigh⟩, rfl⟩
    refine ⟨codeNumber v, ⟨?_, rfl⟩, ?_⟩
    all_goals
      unfold codeNumber
      split_ifs <;> omega
  · rintro ⟨k, ⟨hk, rfl⟩, rfl⟩
    refine ⟨?_, congrArg ueCode ?_⟩
    · split_ifs <;> omega
    · unfold codeNumber
      split_ifs <;> omega

/-! ## Sequences -/

/-- A syntax element is unsigned or signed. -/
def element : Bool → Prog BitReader VideoError (ℕ ⊕ ℤ)
  | false => do
    let v ← ue
    pure (.inl v)
  | true => do
    let v ← se
    pure (.inr v)

def elements : List Bool → Prog BitReader VideoError (List (ℕ ⊕ ℤ))
  | [] => pure []
  | signed :: rest => do
    let e ← element signed
    let es ← elements rest
    pure (e :: es)

def Codable : ℕ ⊕ ℤ → Prop
  | .inl v => v < 2 ^ 32 - 1
  | .inr v => -2 ^ 31 < v ∧ v < 2 ^ 31

def elementCode : ℕ ⊕ ℤ → List Bool
  | .inl v => ueCode v
  | .inr v => seCode v

lemma element_decodes (signed : Bool) : Decodes (element signed) fun e l =>
    (e.isRight = signed ∧ Codable e) ∧ l = elementCode e := by
  cases signed
  · refine ue_decodes.map fun e l => ?_
    cases e <;> simp [Codable, elementCode]
  · refine se_decodes.map fun e l => ?_
    cases e <;> simp [Codable, elementCode]

lemma Decodes.reads (h : Decodes p code) (ha : code a l) (hl : l <+: r.rest) :
    ∃ r', exec p r = (.ok a, r') ∧ Moved r l r' := by
  obtain ⟨l', hmoved, hp⟩ := h r
  obtain ⟨hok, rfl⟩ := (hp a l).mp ⟨ha, hl⟩
  exact ⟨_, Prod.ext hok rfl, hmoved⟩

lemma elements_reads {es : List (ℕ ⊕ ℤ)} (hes : ∀ e ∈ es, Codable e)
    (hrest : es.flatMap elementCode <+: r.rest) :
    ∃ r', exec (elements (es.map Sum.isRight)) r = (.ok es, r') ∧
      Moved r (es.flatMap elementCode) r' := by
  induction es generalizing r with
  | nil => exact ⟨r, rfl, .refl r⟩
  | cons e es ih =>
    rw [forall_mem_cons] at hes
    rw [flatMap_cons] at hrest ⊢
    obtain ⟨r', hexec, hmoved⟩ := (element_decodes e.isRight).reads ⟨⟨rfl, hes.1⟩, rfl⟩
      ((prefix_append _ _).trans hrest)
    obtain ⟨r'', hexec', hmoved'⟩ := ih hes.2 (hmoved.append_prefix.mp hrest)
    refine ⟨r'', ?_, hmoved.trans hmoved'⟩
    rw [map_cons, elements, exec_bind, hexec]
    dsimp only
    rw [exec_bind, hexec']
    rfl

/-- The values are read in order, with the position after each code; and other data ends in an
error or after one complete code. -/
theorem elements_invert_codes (es : List (ℕ ⊕ ℤ)) (data : List UInt8) (before after : List Bool)
    (hes : ∀ e ∈ es, Codable e) (hdata : bits data = before ++ es.flatMap elementCode ++ after) :
    (∀ read, read <+: es → exec (elements (read.map Sum.isRight)) ⟨data, before.length⟩ =
      (.ok read, ⟨data, before.length + (read.flatMap elementCode).length⟩)) ∧
    Decodes ue (fun v l => v < 2 ^ 32 - 1 ∧ l = ueCode v) ∧
    Decodes se fun v l => (-2 ^ 31 < v ∧ v < 2 ^ 31) ∧ l = seCode v := by
  refine ⟨?_, ue_decodes, se_decodes⟩
  rintro read ⟨unread, rfl⟩
  rw [forall_mem_append] at hes
  obtain ⟨_, hexec, rfl, -⟩ := elements_reads (r := ⟨data, before.length⟩) hes.1 (by
    rw [BitReader.rest, hdata, append_assoc, drop_left, flatMap_append, append_assoc]
    exact prefix_append _ _)
  exact hexec

theorem elements_invert_codes_minus_one : exec (elements [true]) ⟨[0x38], 1⟩ =
    (.ok [.inr (-1)], ⟨[0x38], 4⟩) :=
  (elements_invert_codes [.inr (-1)] [0x38] [false] [true, false, false, false]
    (by simp [Codable]) (by decide)).1 _ prefix_rfl

end NvidiaProlapse.ExpGolomb
