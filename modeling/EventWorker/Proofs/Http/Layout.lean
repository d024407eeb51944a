import EventWorker.Proofs.Http.Escapes
import EventWorker.Proofs.Job.Name

/-!
# Addresses taken apart

An address is taken apart at its slashes, at the question mark before its query and at the number sign
before its fragment, and the escapes between the slashes are read (`Address.ofText`).

The addresses here are laid out in one way: after a base come labels, a text that may hold anything, and
labels again. The text is one of the pieces that such an address is taken apart into exactly if nothing of
it means something else (`IsPiece`). What else a piece can be is part of the text or one of the labels, so
the text is not found in another place either (`eq_of_mem_splitOnP_of_decode_eq`).

The separators are a parameter, since in some addresses a backslash is a slash as well.

Main statement: `Address.ofText_laidOut_iff`.
-/

namespace EventWorker.Url

variable {c d mark : Char} {cs xs ys : List Char}

/-! ### Marks -/

theorem notMem_takeWhile_ne (mark : Char) (cs : List Char) : mark ∉ cs.takeWhile (· ≠ mark) := by
  intro h
  simpa using List.all_eq_true.1 List.all_takeWhile _ h

theorem takeWhile_append_cons {p : Char → Bool} (h : p c = false) (xs ys : List Char) :
    (xs ++ c :: ys).takeWhile p = xs.takeWhile p := by
  rw [List.takeWhile_append, List.takeWhile_cons_of_neg (by simp [h]), List.append_nil]
  split
  · next hall => exact ((List.takeWhile_prefix p).eq_of_length hall).symm
  · rfl

theorem dropWhile_append_cons {p : Char → Bool} (h : p c = false) (xs ys : List Char) :
    (xs ++ c :: ys).dropWhile p = xs.dropWhile p ++ c :: ys := by
  rw [List.dropWhile_append, List.dropWhile_cons_of_neg (by simp [h])]
  split
  · next hnil => rw [List.isEmpty_iff.1 hnil, List.nil_append]
  · rfl

theorem cut_append (h : mark ∉ xs) (ys : List Char) :
    cut mark (xs ++ ys) = (xs ++ (cut mark ys).1, (cut mark ys).2) := by
  induction xs with
  | nil => rfl
  | cons x xs ih =>
    have hx : x ≠ mark := fun hx => h (hx ▸ List.mem_cons_self)
    have hxs := ih fun hmem => h (List.mem_cons_of_mem x hmem)
    simp only [cut, Prod.mk.injEq] at hxs ⊢
    rw [List.cons_append, List.takeWhile_cons_of_pos (by simpa using hx), hxs.1,
      List.dropWhile_cons_of_pos (by simpa using hx), hxs.2]
    exact ⟨rfl, rfl⟩

theorem cut_of_notMem (h : mark ∉ cs) : cut mark cs = (cs, none) := by
  have hcs := cut_append h []
  rw [List.append_nil] at hcs
  rw [hcs]
  exact congrArg (·, none) (List.append_nil cs)

theorem cut_cons_self (mark : Char) (cs : List Char) : cut mark (mark :: cs) = ([], some cs) := by
  simp [cut]

/-- No character of the text begins a query or a fragment. -/
def IsUnmarked (cs : List Char) : Prop :=
  ∀ c ∈ cs, c ≠ '?' ∧ c ≠ '#'

instance (cs : List Char) : Decidable (IsUnmarked cs) :=
  List.decidableBAll (fun c => c ≠ '?' ∧ c ≠ '#') cs

theorem pathPart_append (h : IsUnmarked xs) (ys : List Char) :
    pathPart (xs ++ ys) = xs ++ pathPart ys := by
  rw [pathPart, cut_append fun hc => (h _ hc).2 rfl, cut_append fun hc => (h _ hc).1 rfl, pathPart]

theorem pathPart_of_isUnmarked (h : IsUnmarked cs) : pathPart cs = cs := by
  have hcs := pathPart_append h []
  rw [List.append_nil] at hcs
  exact hcs.trans (List.append_nil cs)

theorem queryPart_append (h : IsUnmarked xs) (ys : List Char) :
    queryPart (xs ++ ys) = queryPart ys := by
  rw [queryPart, cut_append fun hc => (h _ hc).2 rfl, cut_append fun hc => (h _ hc).1 rfl, queryPart]

theorem isUnmarked_pathPart (cs : List Char) : IsUnmarked (pathPart cs) := by
  refine fun c hc => ⟨?_, ?_⟩
  · rintro rfl
    exact notMem_takeWhile_ne _ _ hc
  · rintro rfl
    exact notMem_takeWhile_ne '#' cs ((List.takeWhile_prefix _).mem hc)

theorem pathPart_isPrefix (cs : List Char) : pathPart cs <+: cs :=
  (List.takeWhile_prefix _).trans (List.takeWhile_prefix _)

/-- A mark ends the path, whatever follows. -/
theorem pathPart_append_isPrefix (h : ¬ IsUnmarked xs) (ys : List Char) : pathPart (xs ++ ys) <+: xs := by
  refine (List.prefix_or_prefix_of_prefix (pathPart_isPrefix _) (List.prefix_append xs ys)).resolve_right ?_
  rintro ⟨rest, hrest⟩
  have hunmarked := isUnmarked_pathPart (xs ++ ys)
  rw [← hrest] at hunmarked
  exact h fun c hc => hunmarked c (List.mem_append_left rest hc)

theorem cut_cut_question_mark (q : List Char) :
    cut '?' (cut '#' ('?' :: q)).1 = ([], some (cut '#' q).1) := by
  rw [← List.singleton_append, cut_append (by decide)]
  exact cut_cons_self '?' _

/-! ### Slashes -/

section Pieces

variable {sep : Char → Bool} {piece : List Char}

theorem mem_splitOnP (h : piece ∈ cs.splitOnP sep) : piece.Sublist cs ∧ ∀ c ∈ piece, sep c = false := by
  induction cs generalizing piece with
  | nil =>
    rw [List.splitOnP_nil, List.mem_singleton] at h
    simp [h]
  | cons c cs ih =>
    rw [List.splitOnP_cons_eq_if_modifyHead] at h
    split at h
    · rcases List.mem_cons.1 h with rfl | h
      · simp
      · exact ⟨(ih h).1.cons c, (ih h).2⟩
    · next hc =>
      -- the character belongs to the first piece of what follows
      obtain ⟨first, rest, hpieces⟩ := List.exists_cons_of_ne_nil (List.splitOnP_ne_nil sep cs)
      rw [hpieces, List.modifyHead_cons] at h
      rw [hpieces] at ih
      rcases List.mem_cons.1 h with rfl | h
      · obtain ⟨hsub, hfirst⟩ := ih List.mem_cons_self
        exact ⟨hsub.cons_cons c, List.forall_mem_cons.2 ⟨by simpa using hc, hfirst⟩⟩
      · obtain ⟨hsub, hpiece⟩ := ih (List.mem_cons_of_mem first h)
        exact ⟨hsub.cons c, hpiece⟩

/-- Texts that have no slash in them stand between the slashes before them. -/
theorem splitOnP_append_flatMap (hsep : sep '/' = true) {texts : List (List Char)}
    (h : ∀ t ∈ texts, ∀ c ∈ t, sep c = false) (xs : List Char) :
    (xs ++ texts.flatMap ('/' :: ·)).splitOnP sep = xs.splitOnP sep ++ texts := by
  induction texts generalizing xs with
  | nil => rw [List.flatMap_nil, List.append_nil, List.append_nil]
  | cons t texts ih =>
    obtain ⟨ht, htexts⟩ := List.forall_mem_cons.1 h
    rw [List.flatMap_cons, List.cons_append, List.splitOnP_append_cons _ _ hsep, ih htexts,
      List.splitOnP_eq_singleton ht, List.singleton_append]

end Pieces

/-! ### Labels around a text -/

theorem ne_of_isLabelChar (hc : isLabelChar c) (hd : isLabelChar d = false) : c ≠ d := by
  rintro rfl
  rw [hd] at hc
  cases hc

/-- A character of a label is nothing but itself, wherever it stands. -/
theorem inert_of_isLabelChar (h : isLabelChar c) :
    keptInQuery c ∧ isSlash c = false ∧ isSkipped c = false := by
  have hascii : ∀ n < 128, isLabelChar (Char.ofNat n) →
      keptInQuery (Char.ofNat n) ∧ isSlash (Char.ofNat n) = false ∧ isSkipped (Char.ofNat n) = false := by
    decide +kernel
  have hlt : c.toNat < 128 :=
    Nat.lt_succ_of_le (UInt32.le_iff_toNat_le.1 (Char.utf8Size_eq_one_iff.1 (utf8Size_of_isLabelChar h)))
  simpa only [Char.ofNat_toNat] using hascii c.toNat hlt (by rwa [Char.ofNat_toNat])

theorem isSlash_of_isLabelChar (c : Char) (h : isLabelChar c) : isSlash c = false :=
  (inert_of_isLabelChar h).2.1

def AreLabels (texts : List (List Char)) : Prop :=
  ∀ t ∈ texts, ∀ c ∈ t, isLabelChar c

instance (texts : List (List Char)) : Decidable (AreLabels texts) :=
  decidable_of_iff (texts.all fun t => t.all isLabelChar)
    (by simp only [AreLabels, List.all_eq_true])

/-- Nothing of the text means something else where the separators are. -/
structure IsPiece (sep : Char → Bool) (text : List Char) : Prop where
  unmarked : IsUnmarked text
  whole : ∀ c ∈ text, sep c = false
  escape : hasEscape text = false

theorem isPiece_iff {sep : Char → Bool} {text : List Char} : IsPiece sep text ↔
    IsUnmarked text ∧ (text.all fun c => !sep c) ∧ hasEscape text = false := by
  have hwhole : (text.all fun c => !sep c) ↔ ∀ c ∈ text, sep c = false := by
    simp only [List.all_eq_true, Bool.not_eq_true']
  rw [hwhole]
  exact ⟨fun h => ⟨h.unmarked, h.whole, h.escape⟩, fun h => ⟨h.1, h.2.1, h.2.2⟩⟩

instance (sep : Char → Bool) (text : List Char) : Decidable (IsPiece sep text) :=
  decidable_of_iff _ isPiece_iff.symm

section LaidOut

variable {sep : Char → Bool} {lead tail : List (List Char)} {part : List Char}

theorem isUnmarked_flatMap (h : ∀ t ∈ tail, IsUnmarked t) : IsUnmarked (tail.flatMap ('/' :: ·)) := by
  rw [IsUnmarked, List.forall_mem_flatMap]
  exact fun t ht => List.forall_mem_cons.2 ⟨by decide, h t ht⟩

theorem AreLabels.isUnmarked (h : AreLabels tail) : ∀ t ∈ tail, IsUnmarked t :=
  fun t ht c hc => ⟨ne_of_isLabelChar (h t ht c hc) rfl, ne_of_isLabelChar (h t ht c hc) rfl⟩

theorem AreLabels.hasEscape (h : AreLabels tail) : ∀ t ∈ tail, hasEscape t = false :=
  fun t ht => hasEscape_of_percent_notMem fun hc => ne_of_isLabelChar (h t ht _ hc) rfl rfl

theorem pathPart_written (h : ∀ t ∈ tail, IsUnmarked t) (query : Option (List Char)) :
    pathPart (written tail query) = tail.flatMap ('/' :: ·) := by
  cases query with
  | none => exact (pathPart_append (isUnmarked_flatMap h) []).trans (List.append_nil _)
  | some q =>
    rw [written, pathPart_append (isUnmarked_flatMap h), pathPart, cut_cut_question_mark,
      List.append_nil]

theorem queryPart_written (h : ∀ t ∈ tail, IsUnmarked t) {query : Option (List Char)}
    (hquery : ∀ q ∈ query, '#' ∉ q) : queryPart (written tail query) = query := by
  cases query with
  | none => exact queryPart_append (isUnmarked_flatMap h) []
  | some q =>
    rw [written, queryPart_append (isUnmarked_flatMap h), queryPart, cut_cut_question_mark,
      cut_of_notMem (hquery q rfl)]

theorem notMem_written (h : ∀ t ∈ tail, IsUnmarked t) {query : Option (List Char)}
    (hquery : ∀ q ∈ query, '#' ∉ q) : '#' ∉ written tail query := by
  intro hmem
  rcases List.mem_append.1 hmem with hmem | hmem
  · exact (isUnmarked_flatMap h _ hmem).2 rfl
  · cases query with
    | none => cases hmem
    | some q =>
      rcases List.mem_cons.1 hmem with hmem | hmem
      · exact absurd hmem (by decide)
      · exact hquery q rfl hmem

theorem written_append_cons (lead tail : List (List Char)) (part : List Char)
    (query : Option (List Char)) : written (lead ++ part :: tail) query =
      lead.flatMap ('/' :: ·) ++ '/' :: (part ++ written tail query) := by
  simp only [written, List.flatMap_append, List.flatMap_cons, List.cons_append, List.append_assoc]

variable (hsep : sep '/' = true) (hlabel : ∀ c, isLabelChar c → sep c = false)

include hsep hlabel

/-- The pieces of a path that is laid out between labels. -/
theorem splitOnP_laidOut (hlead : AreLabels lead) (before : List Char) (query : Option (List Char)) :
    (before ++ pathPart (written (lead ++ part :: tail) query)).splitOnP sep =
      before.splitOnP sep ++ (lead ++ (pathPart (part ++ written tail query)).splitOnP sep) := by
  have hslash : IsUnmarked (lead.flatMap ('/' :: ·) ++ ['/']) :=
    List.forall_mem_append.2 ⟨isUnmarked_flatMap hlead.isUnmarked, (by decide : IsUnmarked ['/'])⟩
  rw [written_append_cons, List.append_cons, pathPart_append hslash, List.append_assoc,
    List.singleton_append, ← List.append_assoc, List.splitOnP_append_cons _ _ hsep,
    splitOnP_append_flatMap hsep fun t ht c hc => hlabel c (hlead t ht c hc), List.append_assoc]

/-- A text without marks and separators is a piece of its own. -/
theorem splitOnP_pathPart_append (htail : AreLabels tail) (query : Option (List Char))
    (hunmarked : IsUnmarked part) :
    (pathPart (part ++ written tail query)).splitOnP sep = part.splitOnP sep ++ tail := by
  rw [pathPart_append hunmarked, pathPart_written htail.isUnmarked,
    splitOnP_append_flatMap hsep fun t ht c hc => hlabel c (htail t ht c hc)]

theorem sublist_or_mem_of_mem_splitOnP (htail : AreLabels tail) {query : Option (List Char)}
    {piece : List Char} (h : piece ∈ (pathPart (part ++ written tail query)).splitOnP sep) :
    piece.Sublist part ∨ piece ∈ tail := by
  by_cases hunmarked : IsUnmarked part
  · rw [splitOnP_pathPart_append hsep hlabel htail query hunmarked] at h
    exact (List.mem_append.1 h).imp_left fun h => (mem_splitOnP h).1
  · exact .inl ((mem_splitOnP h).1.trans (pathPart_append_isPrefix hunmarked _).sublist)

/-- **A text is found among the pieces only as it is.** If some piece is read as the text of which a part
has been put between labels, then the piece is the text, and it holds no escape. -/
theorem eq_of_mem_splitOnP_of_decode_eq (htail : AreLabels tail) {query : Option (List Char)}
    {text piece : List Char} (hpart : part.Sublist text)
    (h : piece ∈ (pathPart (part ++ written tail query)).splitOnP sep)
    (hdecode : decode piece = text.flatMap String.utf8EncodeChar) :
    piece = text ∧ hasEscape piece = false := by
  rcases sublist_or_mem_of_mem_splitOnP hsep hlabel htail h with hsub | hmem
  · exact eq_of_sublist_of_decode_eq (hsub.trans hpart) hdecode
  · -- a label holds no escape either, so it is the text if it is read as the text
    have hplain := htail.hasEscape piece hmem
    rw [decode_of_not_hasEscape hplain, ← Text.bytesOf_ofList, ← Text.bytesOf_ofList,
      Text.bytesOf_inj, String.ofList_inj] at hdecode
    exact ⟨hdecode, hplain⟩

/-- **A text that has been put between labels is read there** exactly if nothing of it means something
else in an address. -/
theorem map_decode_splitOnP_iff (htail : AreLabels tail) (text : List Char)
    (query : Option (List Char)) :
    ((pathPart (text ++ written tail query)).splitOnP sep).map decode =
        (text :: tail).map (·.flatMap String.utf8EncodeChar) ↔
      IsPiece sep text := by
  constructor
  · intro h
    obtain ⟨piece, hpiece, hdecode⟩ : ∃ piece ∈ (pathPart (text ++ written tail query)).splitOnP sep,
        decode piece = text.flatMap String.utf8EncodeChar := by
      rw [← List.mem_map, h]
      exact List.mem_cons_self
    obtain ⟨rfl, hescape⟩ :=
      eq_of_mem_splitOnP_of_decode_eq hsep hlabel htail (List.Sublist.refl text) hpiece hdecode
    obtain ⟨hsub, hnone⟩ := mem_splitOnP hpiece
    exact ⟨fun c hc => isUnmarked_pathPart _ c (hsub.mem hc), hnone, hescape⟩
  · intro h
    rw [splitOnP_pathPart_append hsep hlabel htail query h.unmarked,
      List.splitOnP_eq_singleton h.whole, List.singleton_append, List.map_cons, List.map_cons,
      decode_of_not_hasEscape h.escape,
      List.map_congr_left fun t ht => decode_of_not_hasEscape (htail.hasEscape t ht)]

end LaidOut

/-! ### Addresses -/

/-- An address taken apart. -/
@[ext]
structure Address where
  /-- What stands between the slashes, as it is read. -/
  path : List (List UInt8)
  query : Option String
  fragment : Option String
  deriving DecidableEq

def Address.ofText (url : String) : Address where
  path := ((pathPart url.toList).splitOn '/').map decode
  query := (queryPart url.toList).map String.ofList
  fragment := (cut '#' url.toList).2.map String.ofList

theorem Address.path_ofText (url : String) :
    (ofText url).path = ((pathPart url.toList).splitOnP (· == '/')).map decode :=
  rfl

theorem Address.ofText_written {segments : List (List Char)} {query : Option (List Char)}
    (hsegments : ∀ s ∈ segments, IsUnmarked s ∧ '/' ∉ s) (hquery : ∀ q ∈ query, '#' ∉ q) :
    ofText (String.ofList (written segments query)) =
      ⟨([] :: segments).map decode, query.map String.ofList, none⟩ := by
  have hunmarked : ∀ s ∈ segments, IsUnmarked s := fun s hs => (hsegments s hs).1
  have hsplit : (segments.flatMap ('/' :: ·)).splitOn '/' = [] :: segments := by
    have hnone : ∀ s ∈ segments, ∀ c ∈ s, (c == '/') = false := fun s hs c hc => by
      rw [beq_eq_false_iff_ne]
      rintro rfl
      exact (hsegments s hs).2 hc
    exact splitOnP_append_flatMap (by decide) hnone []
  rw [ofText, String.toList_ofList, pathPart_written hunmarked, queryPart_written hunmarked hquery,
    cut_of_notMem (notMem_written hunmarked hquery), hsplit]
  rfl

/-- **An address names a text between labels** exactly if the text is a piece of it. -/
theorem Address.ofText_laidOut_iff {base : String} (hbase : IsUnmarked base.toList)
    {lead tail : List (List Char)} (hlead : AreLabels lead) (htail : AreLabels tail)
    {query : Option (List Char)} (hquery : ∀ q ∈ query, '#' ∉ q) (text : List Char) :
    ofText (base ++ String.ofList (written (lead ++ text :: tail) query)) =
        { path := (ofText base).path ++ (lead ++ text :: tail).map (·.flatMap String.utf8EncodeChar)
          query := query.map String.ofList
          fragment := none } ↔
      IsPiece (· == '/') text := by
  have hlabel : ∀ c, isLabelChar c → (c == '/') = false := fun c hc =>
    beq_eq_false_iff_ne.2 (ne_of_isLabelChar hc rfl)
  have hpath : (ofText (base ++ String.ofList (written (lead ++ text :: tail) query))).path =
      (ofText base).path ++ (lead.map (·.flatMap String.utf8EncodeChar) ++
        ((pathPart (text ++ written tail query)).splitOnP (· == '/')).map decode) := by
    rw [path_ofText, path_ofText, String.toList_append, String.toList_ofList, pathPart_append hbase,
      pathPart_of_isUnmarked hbase, splitOnP_laidOut rfl hlabel hlead, List.map_append,
      List.map_append, List.map_congr_left fun t ht => decode_of_not_hasEscape (hlead.hasEscape t ht)]
  constructor
  · intro h
    have hpieces := congrArg Address.path h
    rw [hpath, List.map_append, List.append_cancel_left_eq, List.append_cancel_left_eq] at hpieces
    exact (map_decode_splitOnP_iff rfl hlabel htail text query).1 hpieces
  · intro h
    have hunmarked : ∀ t ∈ lead ++ text :: tail, IsUnmarked t := List.forall_mem_append.2
      ⟨hlead.isUnmarked, List.forall_mem_cons.2 ⟨h.unmarked, htail.isUnmarked⟩⟩
    have hfragment : '#' ∉ (base ++ String.ofList (written (lead ++ text :: tail) query)).toList := by
      rw [String.toList_append, String.toList_ofList]
      exact List.not_mem_append (fun hmem => (hbase _ hmem).2 rfl) (notMem_written hunmarked hquery)
    refine Address.ext ?_ ?_ ?_
    · rw [hpath, (map_decode_splitOnP_iff rfl hlabel htail text query).2 h, List.map_append]
    · rw [ofText, String.toList_append, String.toList_ofList, queryPart_append hbase,
        queryPart_written hunmarked hquery]
    · rw [ofText, cut_of_notMem hfragment]
      rfl

end EventWorker.Url
