import EventWorker.Document.Scalar
import EventWorker.Http.Url
import EventWorker.Proofs.Text.Utf8

/-!
# Escapes in addresses

Whoever reads a part of an address takes a percent sign and two hexadecimal digits for the byte that the
digits spell, and any other character for itself (`decode`). Writing characters as escapes does not
change what is read (`decode_encode`). But a percent sign is written as it is, so a text that holds an
escape from the start is read as fewer bytes than it has, and so is a text that is only a part of it.

Main statement: `eq_of_sublist_of_decode_eq`, that a text can be read from a part of it only if the part
is the whole and no escape is in it.
-/

namespace EventWorker.Url

open Document

/-! ### Reading -/

/-- The byte that a percent sign and two hexadecimal digits stand for. -/
def escaped? (c d e : Char) : Option UInt8 :=
  if c = '%' then
    (digitIn? 16 d).bind fun high => (digitIn? 16 e).map fun low => .ofNat (high * 16 + low)
  else none

def decode : List Char → List UInt8
  | [] => []
  | c :: d :: e :: cs =>
    match escaped? c d e with
    | some b => b :: decode cs
    | none => String.utf8EncodeChar c ++ decode (d :: e :: cs)
  | c :: cs => String.utf8EncodeChar c ++ decode cs

/-- An escape stands somewhere in the text. -/
def hasEscape : List Char → Bool
  | c :: d :: e :: cs => (escaped? c d e).isSome || hasEscape (d :: e :: cs)
  | _ => false

variable {c d e : Char} {cs : List Char}

theorem escaped?_eq_some_iff {b : UInt8} : escaped? c d e = some b ↔ c = '%' ∧
    ∃ high, digitIn? 16 d = some high ∧ ∃ low, digitIn? 16 e = some low ∧
      .ofNat (high * 16 + low) = b := by
  rw [escaped?, Option.ite_none_right_eq_some]
  simp only [Option.bind_eq_some_iff, Option.map_eq_some_iff]

/-- The character begins no escape if the text goes on after it. -/
def Plain (c : Char) (cs : List Char) : Prop :=
  ∀ d e rest, cs = d :: e :: rest → escaped? c d e = none

theorem plain_of_ne (h : c ≠ '%') (cs : List Char) : Plain c cs :=
  fun _ _ _ _ => if_neg h

theorem decode_escape {b : UInt8} (h : escaped? c d e = some b) :
    decode (c :: d :: e :: cs) = b :: decode cs := by
  rw [decode, h]

theorem decode_cons (h : Plain c cs) : decode (c :: cs) = String.utf8EncodeChar c ++ decode cs := by
  match cs with
  | [] => rfl
  | [_] => rfl
  | d :: e :: rest => rw [decode, h d e rest rfl]

theorem hasEscape_cons (h : Plain c cs) : hasEscape (c :: cs) = hasEscape cs := by
  match cs with
  | [] => rfl
  | [_] => rfl
  | d :: e :: rest => rw [hasEscape, h d e rest rfl, Option.isSome_none, Bool.false_or]

/-- A text is read from its start, an escape or a character at a time. -/
@[elab_as_elim]
theorem reading {motive : List Char → Prop} (nil : motive [])
    (escape : ∀ d e cs b, escaped? '%' d e = some b → motive cs → motive ('%' :: d :: e :: cs))
    (plain : ∀ c cs, Plain c cs → motive cs → motive (c :: cs)) (cs : List Char) : motive cs := by
  fun_induction decode cs with
  | case1 => exact nil
  | case2 c d e cs b h ih =>
    obtain ⟨rfl, -⟩ := escaped?_eq_some_iff.1 h
    exact escape d e cs b h ih
  | case3 c d e cs h ih =>
    refine plain c (d :: e :: cs) (fun d' e' rest heq => ?_) ih
    cases heq
    exact h
  | case4 c cs hshort ih => exact plain c cs (fun d e rest heq => (hshort d e rest heq).elim) ih

theorem hasEscape_of_percent_notMem (h : '%' ∉ cs) : hasEscape cs = false := by
  induction cs with
  | nil => rfl
  | cons c cs ih =>
    have hc : c ≠ '%' := fun hc => h (hc ▸ List.mem_cons_self)
    rw [hasEscape_cons (plain_of_ne hc cs)]
    exact ih fun hmem => h (List.mem_cons_of_mem c hmem)

/-- Without an escape a text is read as its own bytes. -/
theorem decode_of_not_hasEscape (h : hasEscape cs = false) :
    decode cs = cs.flatMap String.utf8EncodeChar := by
  induction cs using reading with
  | nil => rfl
  | escape d e cs b hesc ih => simp [hasEscape, hesc] at h
  | plain c cs hplain ih =>
    rw [hasEscape_cons hplain] at h
    rw [decode_cons hplain, ih h, List.flatMap_cons]

/-- An escape is read as one byte, although it is made of three. -/
theorem length_decode_le (cs : List Char) :
    (decode cs).length + (hasEscape cs).toNat ≤ (cs.flatMap String.utf8EncodeChar).length := by
  induction cs using reading with
  | nil => exact Nat.le_refl 0
  | escape d e cs b h ih =>
    have hpercent := Text.one_le_length_utf8EncodeChar '%'
    have hd := Text.one_le_length_utf8EncodeChar d
    have he := Text.one_le_length_utf8EncodeChar e
    have hone := Bool.toNat_le (hasEscape ('%' :: d :: e :: cs))
    rw [decode_escape h]
    simp only [List.flatMap_cons, List.length_append, List.length_cons]
    omega
  | plain c cs h ih =>
    rw [decode_cons h, hasEscape_cons h, List.flatMap_cons, List.length_append, List.length_append]
    omega

/-- **A text can be read from a part of it only if the part is the whole** and holds no escape. -/
theorem eq_of_sublist_of_decode_eq {part whole : List Char} (hpart : part.Sublist whole)
    (hdecode : decode part = whole.flatMap String.utf8EncodeChar) :
    part = whole ∧ hasEscape part = false := by
  have hle := length_decode_le part
  rw [hdecode] at hle
  have heq := Text.eq_of_sublist_of_length_le hpart (Nat.le_of_add_right_le hle)
  subst heq
  refine ⟨rfl, ?_⟩
  exact Bool.toNat_eq_zero.1 (by omega)

/-! ### Writing -/

theorem digitIn?_hexDigit {n : Nat} (h : n < 16) : digitIn? 16 (hexDigit n) = some n := by
  revert n
  decide

theorem escaped?_percentByte (b : UInt8) :
    escaped? '%' (hexDigit (b.toNat / 16)) (hexDigit (b.toNat % 16)) = some b := by
  have hb : b.toNat < 256 := b.toNat_lt
  refine escaped?_eq_some_iff.2 ⟨rfl, _, digitIn?_hexDigit (by omega), _,
    digitIn?_hexDigit (by omega), ?_⟩
  rw [Nat.div_add_mod']
  exact UInt8.ofNat_toNat

theorem decode_percentChar_append (c : Char) (cs : List Char) :
    decode (percentChar c ++ cs) = String.utf8EncodeChar c ++ decode cs := by
  have hbytes : ∀ bs : List UInt8, decode (bs.flatMap percentByte ++ cs) = bs ++ decode cs := by
    intro bs
    induction bs with
    | nil => rfl
    | cons b bs ih =>
      show decode ('%' :: _ :: _ :: (bs.flatMap percentByte ++ cs)) = _
      rw [decode_escape (escaped?_percentByte b), ih, List.cons_append]
  exact hbytes _

variable {kept : Char → Bool}

theorem encode_cons (kept : Char → Bool) (c : Char) (cs : List Char) :
    encode kept (c :: cs) = (if kept c then [c] else percentChar c) ++ encode kept cs :=
  List.flatMap_cons

theorem encode_of_kept (h : ∀ c ∈ cs, kept c) : encode kept cs = cs := by
  induction cs with
  | nil => rfl
  | cons c cs ih =>
    obtain ⟨hc, hcs⟩ := List.forall_mem_cons.1 h
    rw [encode_cons, if_pos hc, ih hcs, List.singleton_append]

/-- The characters that a text is written with are those that are kept, and those of escapes. -/
theorem mem_encode (h : c ∈ encode kept cs) :
    c ∈ cs ∧ kept c ∨ c = '%' ∨ ∃ n < 16, c = hexDigit n := by
  obtain ⟨d, hmem, hd⟩ := List.mem_flatMap.1 h
  split at hd
  · next hkept =>
    obtain rfl := List.mem_singleton.1 hd
    exact .inl ⟨hmem, hkept⟩
  · obtain ⟨b, -, hb⟩ := List.mem_flatMap.1 hd
    have hlt : b.toNat < 256 := b.toNat_lt
    simp only [percentByte, List.mem_cons, List.not_mem_nil, or_false] at hb
    rcases hb with hb | hb | hb
    · exact .inr (.inl hb)
    · exact .inr (.inr ⟨_, by omega, hb⟩)
    · exact .inr (.inr ⟨_, by omega, hb⟩)

/-- A text that is not written with a percent sign at its start begins with a kept character. -/
theorem encode_eq_cons (hc : c ≠ '%') {rest : List Char} (h : encode kept cs = c :: rest) :
    ∃ cs', cs = c :: cs' ∧ encode kept cs' = rest := by
  cases cs with
  | nil => cases h
  | cons d cs =>
    rw [encode_cons] at h
    split at h
    · obtain ⟨rfl, hrest⟩ := List.cons.inj h
      exact ⟨cs, rfl, hrest⟩
    · exfalso
      obtain ⟨b, bs, hbytes⟩ := List.exists_cons_of_length_pos (Text.one_le_length_utf8EncodeChar d)
      rw [percentChar, hbytes] at h
      exact hc (List.cons.inj h).1.symm

theorem keptInPath_of_digitIn? {n : Nat} (h : digitIn? 16 c = some n) : keptInPath c ∧ c ≠ '%' := by
  have hascii : ∀ n < 128, (digitIn? 16 (Char.ofNat n)).isSome →
      keptInPath (Char.ofNat n) ∧ Char.ofNat n ≠ '%' := by
    decide +kernel
  have hlt : c.toNat < 128 := by
    grind [digitIn?]
  have hc := hascii c.toNat hlt
  rw [Char.ofNat_toNat, h] at hc
  exact hc rfl

/-- No new escape comes up where the text goes on after a character. -/
theorem plain_encode (h : Plain c cs) : Plain c (encode keptInPath cs) := by
  intro d e rest heq
  refine Option.eq_none_iff_forall_not_mem.2 fun b hb => ?_
  obtain ⟨-, m, hd, n, he, -⟩ := escaped?_eq_some_iff.1 hb
  obtain ⟨cs, rfl, hrest⟩ := encode_eq_cons (keptInPath_of_digitIn? hd).2 heq
  obtain ⟨cs, rfl, -⟩ := encode_eq_cons (keptInPath_of_digitIn? he).2 hrest
  rw [h d e cs rfl] at hb
  cases hb

/-- **What is written in a path is read as what has been written.** -/
theorem decode_encode (cs : List Char) : decode (encode keptInPath cs) = decode cs := by
  induction cs using reading with
  | nil => rfl
  | escape d e cs b h ih =>
    obtain ⟨-, m, hd, n, he, -⟩ := escaped?_eq_some_iff.1 h
    rw [encode_cons, encode_cons, encode_cons, if_pos (by decide), if_pos (keptInPath_of_digitIn? hd).1,
      if_pos (keptInPath_of_digitIn? he).1]
    show decode ('%' :: d :: e :: encode keptInPath cs) = _
    rw [decode_escape h, decode_escape h, ih]
  | plain c cs h ih =>
    rw [decode_cons h, ← ih, encode_cons]
    split
    · exact decode_cons (plain_encode h)
    · exact decode_percentChar_append c _

end EventWorker.Url
