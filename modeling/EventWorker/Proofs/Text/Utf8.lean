import EventWorker.Text.Utf8
import Mathlib.Tactic.IntervalCases

/-!
# The bytes of a text

A text is told by its bytes (`bytesOf_inj`). Every character takes a byte at least, so a text that leaves
characters of another out has fewer bytes than it (`eq_of_sublist_of_length_le`).

Whatever bytes stand between two texts, the texts are read as they were written and the bytes as they are
read alone (`decodeLossy_between`): no character of a text is completed by what comes before it, and none goes
on after its bytes.
-/

namespace EventWorker.Text

theorem bytesOf_inj {s t : String} : bytesOf s = bytesOf t ↔ s = t := by
  refine ⟨fun h => ?_, fun h => by rw [h]⟩
  have hencode : s.toList.utf8Encode = t.toList.utf8Encode := congrArg List.toByteArray h
  rw [← String.toByteArray_inj, ← String.ofList_toList (s := s), ← String.ofList_toList (s := t),
    String.toByteArray_ofList, String.toByteArray_ofList]
  exact hencode

theorem bytesOf_ofList (cs : List Char) :
    bytesOf (String.ofList cs) = cs.flatMap String.utf8EncodeChar := by
  rw [bytesOf, String.toList_ofList]

theorem one_le_length_utf8EncodeChar (c : Char) : 1 ≤ (String.utf8EncodeChar c).length := by
  rw [String.length_utf8EncodeChar]
  exact c.utf8Size_pos

/-- Each character that is left out is a byte less. -/
theorem length_bytes_add_le {part whole : List Char} (h : part.Sublist whole) :
    (part.flatMap String.utf8EncodeChar).length + whole.length ≤
      (whole.flatMap String.utf8EncodeChar).length + part.length := by
  induction h with
  | slnil => exact Nat.le_refl _
  | cons c _ ih =>
    have hc := one_le_length_utf8EncodeChar c
    simp only [List.flatMap_cons, List.length_append, List.length_cons]
    omega
  | cons_cons c _ ih =>
    simp only [List.flatMap_cons, List.length_append, List.length_cons]
    omega

theorem eq_of_sublist_of_length_le {part whole : List Char} (h : part.Sublist whole)
    (hle : (whole.flatMap String.utf8EncodeChar).length ≤
      (part.flatMap String.utf8EncodeChar).length) : part = whole := by
  have hadd := length_bytes_add_le h
  exact h.eq_of_length_le (by omega)

/-! ### Reading bytes one after another -/

/-- The byte may go on with a character and begins none. -/
def IsInner (b : UInt8) : Prop :=
  0x80 ≤ b ∧ b ≤ 0xBF

instance (b : UInt8) : Decidable (IsInner b) :=
  inferInstanceAs (Decidable (_ ∧ _))

theorem lead?_bounds {b : UInt8} {l : Lead} (h : lead? b = some l) :
    ¬ b < 0x80 ∧ 0x80 ≤ l.low ∧ l.high ≤ 0xBF := by
  rw [UInt8.lt_iff_toNat_lt]
  show ¬ b.toNat < 128 ∧ _
  unfold lead? at h
  dsimp only at h
  repeat' split at h
  all_goals cases h
  all_goals
    refine ⟨by omega, ?_⟩
    dsimp only
    decide

/-- A byte that goes on with no character is left unread. -/
theorem continuation_append {b : UInt8} (hb : ¬ IsInner b) (rest : List UInt8) (more : Nat) :
    ∀ {low high : UInt8} (bits : Nat) (bs : List UInt8), 0x80 ≤ low → high ≤ 0xBF →
      continuation more low high bits (bs ++ b :: rest) =
        ((continuation more low high bits bs).1, (continuation more low high bits bs).2 ++ b :: rest) := by
  induction more with
  | zero => intro low high bits bs _ _; rfl
  | succ more ih =>
    intro low high bits bs hlow hhigh
    cases bs with
    | nil =>
      have hout : ¬ (low ≤ b ∧ b ≤ high) := fun h =>
        hb ⟨UInt8.le_trans hlow h.1, UInt8.le_trans h.2 hhigh⟩
      simp only [List.nil_append, continuation, if_neg hout]
    | cons c bs =>
      simp only [List.cons_append, continuation]
      by_cases hc : low ≤ c ∧ c ≤ high
      · rw [if_pos hc, if_pos hc]
        exact ih _ bs (UInt8.le_refl _) (UInt8.le_refl _)
      · rw [if_neg hc, if_neg hc]
        rfl

/-- So bytes can be cut in front of it, and a character that is not complete there is a fault either way. -/
theorem pieces_append {b : UInt8} (hb : ¬ IsInner b) (bs rest : List UInt8) :
    pieces (bs ++ b :: rest) = pieces bs ++ pieces (b :: rest) := by
  induction bs using pieces.induct with
  | case1 => simp [pieces]
  | case2 c bs hc ih => simp [pieces, hc, ih]
  | case3 c bs hc hlead ih =>
    rw [List.cons_append, pieces, pieces.eq_def (c :: bs)]
    simp [hc, hlead, ih]
  | case4 c bs hc l hlead read ih =>
    obtain ⟨-, hlow, hhigh⟩ := lead?_bounds hlead
    have hread := continuation_append hb rest l.more l.bits bs hlow hhigh
    rw [List.cons_append, pieces, pieces.eq_def (c :: bs)]
    simp [hc, hlead, hread, ih, read]

/-! ### Reading back what has been written -/

theorem pieces_of_lead {b low high : UInt8} {more bits n : Nat} {bs rest : List UInt8}
    (hlead : lead? b = some ⟨low, high, more, bits⟩)
    (hread : continuation more low high bits bs = (some n, rest)) :
    pieces (b :: bs) = some (Char.ofNat n) :: pieces rest := by
  rw [pieces, if_neg (lead?_bounds hlead).1, hlead]
  simp only [hread, Option.map_some]

/-- A byte within the bounds brings six more bits. -/
theorem continuation_cons {low high : UInt8} {n : Nat} (hlow : low.toNat ≤ n % 64 + 128)
    (hhigh : n % 64 + 128 ≤ high.toNat) (more bits : Nat) (bs : List UInt8) :
    continuation (more + 1) low high bits (UInt8.ofNat (n % 64 + 128) :: bs) =
      continuation more 0x80 0xBF (bits * 64 + n % 64) bs := by
  have hbyte : (UInt8.ofNat (n % 64 + 128)).toNat = n % 64 + 128 := by
    simp
    omega
  have hwithin : low ≤ UInt8.ofNat (n % 64 + 128) ∧ UInt8.ofNat (n % 64 + 128) ≤ high := by
    rw [UInt8.le_iff_toNat_le, UInt8.le_iff_toNat_le, hbyte]
    exact ⟨hlow, hhigh⟩
  rw [continuation, if_pos hwithin, hbyte, Nat.add_sub_cancel]

theorem continuation_cons_inner (n more bits : Nat) (bs : List UInt8) :
    continuation (more + 1) 0x80 0xBF bits (UInt8.ofNat (n % 64 + 128) :: bs) =
      continuation more 0x80 0xBF (bits * 64 + n % 64) bs := by
  apply continuation_cons
  · show 128 ≤ _
    omega
  · show _ ≤ 191
    omega

theorem lead?_two {n : Nat} (hlow : 2 ≤ n) (hhigh : n < 32) :
    lead? (UInt8.ofNat (n + 192)) = some ⟨0x80, 0xBF, 1, n⟩ := by
  interval_cases n <;> rfl

/-- The bounds leave out what has a shorter form, and surrogates. -/
theorem lead?_three {n : Nat} (h : n < 16) : lead? (UInt8.ofNat (n + 224)) =
    some ⟨if n = 0 then 0xA0 else 0x80, if n = 13 then 0x9F else 0xBF, 2, n⟩ := by
  interval_cases n <;> rfl

/-- The bounds leave out what has a shorter form, and what is no code point any more. -/
theorem lead?_four {n : Nat} (h : n < 5) : lead? (UInt8.ofNat (n + 240)) =
    some ⟨if n = 0 then 0x90 else 0x80, if n = 4 then 0x8F else 0xBF, 3, n⟩ := by
  interval_cases n <;> rfl

theorem utf8EncodeChar_eq (c : Char) : String.utf8EncodeChar c =
    if c.toNat ≤ 127 then [UInt8.ofNat c.toNat]
    else if c.toNat ≤ 2047 then
      [UInt8.ofNat (c.toNat / 64 % 32 + 192), UInt8.ofNat (c.toNat % 64 + 128)]
    else if c.toNat ≤ 65535 then
      [UInt8.ofNat (c.toNat / 4096 % 16 + 224), UInt8.ofNat (c.toNat / 64 % 64 + 128),
        UInt8.ofNat (c.toNat % 64 + 128)]
    else
      [UInt8.ofNat (c.toNat / 262144 % 8 + 240), UInt8.ofNat (c.toNat / 4096 % 64 + 128),
        UInt8.ofNat (c.toNat / 64 % 64 + 128), UInt8.ofNat (c.toNat % 64 + 128)] :=
  rfl

/-- **A character is read back from its bytes**, whatever follows them. -/
theorem pieces_utf8EncodeChar_append (c : Char) (rest : List UInt8) :
    pieces (String.utf8EncodeChar c ++ rest) = some c :: pieces rest := by
  have hvalid : c.toNat < 0xD800 ∨ 0xDFFF < c.toNat ∧ c.toNat < 0x110000 := c.valid
  have hchar : some c = some (Char.ofNat c.toNat) := by rw [Char.ofNat_toNat]
  rw [hchar, utf8EncodeChar_eq]
  generalize c.toNat = n at hvalid
  by_cases hone : n ≤ 127
  · have hbyte : (UInt8.ofNat n).toNat = n := by
      simp
      omega
    have hlow : UInt8.ofNat n < 0x80 := by
      rw [UInt8.lt_iff_toNat_lt, hbyte]
      exact Nat.lt_succ_of_le hone
    rw [if_pos hone, List.singleton_append, pieces, if_pos hlow, hbyte]
  rw [if_neg hone]
  by_cases htwo : n ≤ 2047
  · rw [if_pos htwo, Nat.mod_eq_of_lt (by omega : n / 64 < 32), List.cons_append, List.singleton_append]
    refine pieces_of_lead (lead?_two (by omega) (by omega)) ?_
    rw [continuation_cons_inner, continuation]
    congr 2
    omega
  rw [if_neg htwo]
  by_cases hthree : n ≤ 65535
  · rw [if_pos hthree, Nat.mod_eq_of_lt (by omega : n / 4096 < 16), List.cons_append, List.cons_append,
      List.singleton_append]
    refine pieces_of_lead (lead?_three (by omega)) ?_
    rw [continuation_cons, continuation_cons_inner, continuation]
    · congr 2
      omega
    · split
      · show 160 ≤ _
        omega
      · show 128 ≤ _
        omega
    · split
      · show _ ≤ 159
        omega
      · show _ ≤ 191
        omega
  · rw [if_neg hthree, Nat.mod_eq_of_lt (by omega : n / 262144 < 8), List.cons_append, List.cons_append,
      List.cons_append, List.singleton_append]
    refine pieces_of_lead (lead?_four (by omega)) ?_
    rw [continuation_cons, continuation_cons_inner, continuation_cons_inner, continuation]
    · congr 2
      omega
    · split
      · show 144 ≤ _
        omega
      · show 128 ≤ _
        omega
    · split
      · show _ ≤ 143
        omega
      · show _ ≤ 191
        omega

/-- An inner byte is a fault where a character should begin. -/
theorem pieces_cons_of_isInner {b : UInt8} (hb : IsInner b) (bs : List UInt8) :
    pieces (b :: bs) = none :: pieces bs := by
  have hlow : 128 ≤ b.toNat := UInt8.le_iff_toNat_le.1 hb.1
  have hhigh : b.toNat ≤ 191 := UInt8.le_iff_toNat_le.1 hb.2
  have hlead : lead? b = none := by
    unfold lead?
    dsimp only
    repeat rw [if_neg (by omega)]
  rw [pieces, if_neg (UInt8.not_lt.2 hb.1), hlead]

/-- So none is the first byte of a character. -/
theorem exists_utf8EncodeChar_eq_cons (c : Char) :
    ∃ b bs, String.utf8EncodeChar c = b :: bs ∧ ¬ IsInner b := by
  obtain ⟨b, bs, hbytes⟩ := List.exists_cons_of_length_pos (one_le_length_utf8EncodeChar c)
  refine ⟨b, bs, hbytes, fun hb => ?_⟩
  have hread := pieces_utf8EncodeChar_append c []
  rw [hbytes, List.cons_append, pieces_cons_of_isInner hb] at hread
  cases (List.cons.inj hread).1

theorem pieces_flatMap_append (cs : List Char) (rest : List UInt8) :
    pieces (cs.flatMap String.utf8EncodeChar ++ rest) = cs.map some ++ pieces rest := by
  induction cs with
  | nil => rfl
  | cons c cs ih =>
    rw [List.flatMap_cons, List.append_assoc, pieces_utf8EncodeChar_append, ih, List.map_cons,
      List.cons_append]

theorem pieces_append_flatMap (bs : List UInt8) (cs : List Char) :
    pieces (bs ++ cs.flatMap String.utf8EncodeChar) = pieces bs ++ cs.map some := by
  cases cs with
  | nil => simp
  | cons c cs =>
    obtain ⟨b, more, hbytes, hb⟩ := exists_utf8EncodeChar_eq_cons c
    have hread := pieces_flatMap_append (c :: cs) []
    rw [List.append_nil, List.flatMap_cons, hbytes, List.cons_append, pieces, List.append_nil] at hread
    rw [List.flatMap_cons, hbytes, List.cons_append, pieces_append hb, hread]

/-- **Texts around bytes are read as they were written**, and the bytes as if there were nothing around
them, whether they are UTF-8 or not. -/
theorem decodeLossy_between (front back : String) (bs : List UInt8) :
    decodeLossy (bytesOf front ++ bs ++ bytesOf back) = front ++ decodeLossy bs ++ back := by
  rw [← String.toList_inj, bytesOf, bytesOf, List.append_assoc, decodeLossy, pieces_flatMap_append,
    pieces_append_flatMap, decodeLossy]
  simp [Function.comp_def]

theorem decodeLossy_bytesOf (s : String) : decodeLossy (bytesOf s) = s := by
  have h := decodeLossy_between s "" []
  have hnil : decodeLossy [] = "" := by
    rw [decodeLossy, pieces]
    rfl
  have hempty : bytesOf "" = [] := rfl
  rwa [hnil, hempty, List.append_nil, List.append_nil, String.append_empty, String.append_empty] at h

end EventWorker.Text
