import EventWorker.Proofs.Http.Layout

/-!
# What a host is asked for

Before a request is sent its address is normalised: line ends and tabs go, backslashes become slashes, and
dot segments are resolved (`target`). A text between labels can be lost on the way, or undo what stands
before it. What is asked for names the text exactly if none of this concerns it (`IsKept`).

Resolving goes segment by segment (`settle`). What stands in a place of the path that comes of it has been
written there by a segment, or by dots at the end (`getElem?_resolve`); and the dots of a base are settled
before a label comes (`exists_resolve_append`).

Main statement: `ofText_target_laidOut_iff`.
-/

namespace EventWorker.Url

variable {c : Char} {cs : List Char}

/-! ### Dot segments -/

section Resolve

variable {before segments rest : List (List Char)} {segment : List Char}

/-- The segment names the place that it stands in, or the one above. -/
def IsDots (segment : List Char) : Prop :=
  plainDots segment = ['.', '.'] ∨ plainDots segment = ['.']

theorem isDots_iff (h : hasEscape segment = false) :
    IsDots segment ↔ segment = ['.', '.'] ∨ segment = ['.'] := by
  have hplain : plainDots segment = segment := by
    fun_induction plainDots segment with
    | case1 c d e cs hdot ih =>
      obtain ⟨rfl, rfl, he⟩ := hdot
      rcases he with rfl | rfl
      · cases h
      · cases h
    | case2 c d e cs _ ih =>
      rw [hasEscape, Bool.or_eq_false_iff] at h
      rw [ih h.2]
    | case3 => rfl
  rw [IsDots, hplain]

/-- The segments so far after one more, the last one first. -/
def settle (before : List (List Char)) (segment : List Char) (last : Bool) : List (List Char) :=
  if plainDots segment = ['.', '.'] then if last then [] :: before.drop 1 else before.drop 1
  else if plainDots segment = ['.'] then if last then [] :: before else before
  else encode keptInPath segment :: before

theorem resolve_cons : resolve before (segment :: rest) =
    resolve (settle before segment rest.isEmpty) rest := by
  simp only [resolve, settle]
  split
  · rfl
  · split
    · rfl
    · rfl

theorem settle_of_not_isDots (h : ¬ IsDots segment) (last : Bool) :
    settle before segment last = encode keptInPath segment :: before := by
  rw [IsDots, not_or] at h
  rw [settle, if_neg h.1, if_neg h.2]

theorem settle_last_ne_nil (before : List (List Char)) (segment : List Char) :
    settle before segment true ≠ [] := by
  rw [settle]
  split
  · exact List.cons_ne_nil _ _
  · split
    · exact List.cons_ne_nil _ _
    · exact List.cons_ne_nil _ _

/-- What stands at some place after one more segment has stood there before, or is what dots leave at the
end, or is the segment. -/
theorem getElem?_settle {last : Bool} {i : Nat} {shown : List Char}
    (h : (settle before segment last).reverse[i]? = some shown) :
    before.reverse[i]? = some shown ∨ shown = [] ∨
      ¬ IsDots segment ∧ shown = encode keptInPath segment := by
  have hconcat : ∀ {xs : List (List Char)} {new : List Char}, (new :: xs).reverse[i]? = some shown →
      xs.reverse[i]? = some shown ∨ shown = new := by
    intro xs new hget
    rw [List.reverse_cons, List.getElem?_append] at hget
    split at hget
    · exact .inl hget
    · exact .inr (List.mem_singleton.1 (List.mem_of_getElem? hget))
  have hdrop : (before.drop 1).reverse[i]? = some shown → before.reverse[i]? = some shown := by
    intro hget
    cases before with
    | nil => exact hget
    | cons b before =>
      rw [List.reverse_cons]
      rw [List.drop_one, List.tail_cons] at hget
      rw [List.getElem?_append_left (List.getElem?_eq_some_iff.1 hget).1, hget]
  by_cases hup : plainDots segment = ['.', '.']
  · rw [settle, if_pos hup] at h
    split at h
    · exact (hconcat h).imp hdrop .inl
    · exact .inl (hdrop h)
  · by_cases hhere : plainDots segment = ['.']
    · rw [settle, if_neg hup, if_pos hhere] at h
      split at h
      · exact (hconcat h).imp_right .inl
      · exact .inl h
    · have hdots : ¬ IsDots segment := not_or.2 ⟨hup, hhere⟩
      rw [settle_of_not_isDots hdots] at h
      exact (hconcat h).imp_right fun heq => .inr ⟨hdots, heq⟩

theorem resolve_ne_nil (h : rest ≠ []) : resolve before rest ≠ [] := by
  induction rest generalizing before with
  | nil => exact absurd rfl h
  | cons t rest ih =>
    rw [resolve_cons]
    cases rest with
    | nil => exact fun hnil => settle_last_ne_nil before t (List.reverse_eq_nil_iff.1 hnil)
    | cons t' rest => exact ih (List.cons_ne_nil t' rest)

theorem AreLabels.not_isDots (h : AreLabels segments) : ∀ t ∈ segments, ¬ IsDots t := by
  intro t ht
  rw [isDots_iff (h.hasEscape t ht)]
  rintro (rfl | rfl)
  · exact absurd (h _ ht '.' (by decide)) (by decide)
  · exact absurd (h _ ht '.' (by decide)) (by decide)

theorem resolve_append (h : ∀ t ∈ segments, ¬ IsDots t) (before rest : List (List Char)) :
    resolve before (segments ++ rest) =
      resolve ((segments.map (encode keptInPath)).reverse ++ before) rest := by
  induction segments generalizing before with
  | nil => rfl
  | cons t segments ih =>
    obtain ⟨ht, hsegments⟩ := List.forall_mem_cons.1 h
    rw [List.cons_append, resolve_cons, settle_of_not_isDots ht, ih hsegments, List.map_cons,
      List.reverse_cons, List.append_assoc, List.singleton_append]

/-- Whatever dots there are, they have been settled by the time that the segments after them come. -/
theorem exists_resolve_append (before segments : List (List Char)) :
    ∃ settled, ∀ segment rest,
      resolve before (segments ++ segment :: rest) = resolve settled (segment :: rest) := by
  induction segments generalizing before with
  | nil => exact ⟨before, fun _ _ => rfl⟩
  | cons s segments ih =>
    obtain ⟨settled, h⟩ := ih (settle before s false)
    refine ⟨settled, fun segment rest => ?_⟩
    have hlast : (segments ++ segment :: rest).isEmpty = false := by
      simp
    rw [List.cons_append, resolve_cons, hlast, h]

/-- What stands at some place of a resolved path has stood there before, or is what dots leave at the end,
or is one of the other segments. -/
theorem getElem?_resolve {i : Nat} {shown : List Char} (h : (resolve before rest)[i]? = some shown) :
    before.reverse[i]? = some shown ∨ shown = [] ∨
      ∃ t ∈ rest, ¬ IsDots t ∧ shown = encode keptInPath t := by
  induction rest generalizing before with
  | nil => exact .inl h
  | cons t rest ih =>
    rw [resolve_cons] at h
    rcases ih h with hsettled | hempty | ⟨t', ht', hshown⟩
    · exact (getElem?_settle hsettled).imp_right
        (Or.imp_right fun hshown => ⟨t, List.mem_cons_self, hshown⟩)
    · exact .inr (.inl hempty)
    · exact .inr (.inr ⟨t', List.mem_cons_of_mem t ht', hshown⟩)

end Resolve

/-! ### Under a base -/

section Base

variable {url base : String}

/-- What can follow a base: it begins with a slash, and what it ends in counts. -/
structure IsSuffix (suffix : List Char) : Prop where
  head : ∃ rest, suffix = '/' :: rest
  last : ∃ init c, suffix = init ++ [c] ∧ isOuter c = false

/-- What counts of a text. -/
def visible (cs : List Char) : List Char :=
  cs.filter (!isSkipped ·)

theorem visible_of_forall (h : ∀ c ∈ cs, isSkipped c = false) : visible cs = cs :=
  List.filter_eq_self.2 fun c hc => by rw [h c hc, Bool.not_false]

theorem visible_written (segments : List (List Char)) (query : Option (List Char)) :
    visible (written segments query) = written (segments.map visible) (query.map visible) := by
  have hpath : visible (segments.flatMap ('/' :: ·)) = (segments.map visible).flatMap ('/' :: ·) := by
    rw [visible, List.filter_flatMap, List.flatMap_map]
    rfl
  cases query with
  | none => rw [written, visible, List.filter_append, ← visible, hpath]; rfl
  | some q => rw [written, visible, List.filter_append, ← visible, hpath]; rfl

theorem AreLabels.map_visible {labels : List (List Char)} (h : AreLabels labels) :
    labels.map visible = labels := by
  refine (List.map_congr_left fun t ht => ?_).trans (List.map_id labels)
  exact visible_of_forall fun c hc => (inert_of_isLabelChar (h t ht c hc)).2.2

theorem visible_laidOut {lead tail : List (List Char)} (hlead : AreLabels lead) (htail : AreLabels tail)
    {query : Option (List Char)} (hquery : ∀ q ∈ query, ∀ c ∈ q, keptInQuery c) (text : List Char) :
    visible (written (lead ++ text :: tail) query) = written (lead ++ visible text :: tail) query := by
  have hskipped : ∀ {c : Char}, keptInQuery c → isSkipped c = false := by
    intro c hc
    cases hskip : isSkipped c with
    | false => rfl
    | true =>
      simp only [isSkipped, Bool.or_eq_true, decide_eq_true_eq] at hskip
      rcases hskip with (rfl | rfl) | rfl
      · cases hc
      · cases hc
      · cases hc
  rw [visible_written, List.map_append, List.map_cons, hlead.map_visible, htail.map_visible]
  congr 1
  cases query with
  | none => rfl
  | some q => exact congrArg some (visible_of_forall fun c hc => hskipped (hquery q rfl c hc))

theorem exists_clean_append (base : List Char) : ∃ start : List Char, start.Sublist base ∧
    ∀ suffix, IsSuffix suffix → clean (base ++ suffix) = start ++ visible suffix := by
  refine ⟨visible (base.dropWhile isOuter),
    List.filter_sublist.trans (List.dropWhile_sublist _), ?_⟩
  rintro suffix ⟨⟨rest, hhead⟩, init, c, hlast, hc⟩
  have hfront : (base ++ suffix).dropWhile isOuter = base.dropWhile isOuter ++ suffix := by
    rw [hhead, dropWhile_append_cons rfl]
  have hback : ∀ xs : List Char,
      ((xs ++ suffix).reverse.dropWhile isOuter).reverse = xs ++ suffix := by
    intro xs
    rw [hlast, ← List.append_assoc, List.reverse_append, List.reverse_singleton,
      List.singleton_append, List.dropWhile_cons_of_neg (by simp [hc]), List.reverse_cons,
      List.reverse_reverse]
  rw [clean, hfront, hback, List.filter_append]
  rfl

theorem authority_ne_nil (h : isUsable url) : (parts url).authority ≠ [] := by
  intro hnil
  simp [isUsable, hnil] at h

/-- An address that names its host names it before the slash at its end. -/
theorem exists_scheme {start : List Char} (husable : isUsable url)
    (hclean : clean url.toList = start ++ ['/']) :
    ∃ scheme afterScheme, start = scheme ++ ':' :: afterScheme ∧ ':' ∉ scheme ∧
      afterScheme.dropWhile isSlash ≠ [] := by
  have hauthority := authority_ne_nil husable
  simp only [parts, hclean] at hauthority
  have hcolon : ':' ∈ start := by
    refine Decidable.byContradiction fun hno => hauthority ?_
    rw [cut_of_notMem (List.not_mem_append hno (by decide))]
    rfl
  obtain ⟨scheme, afterScheme, rfl, hscheme⟩ := List.eq_append_cons_of_mem hcolon
  refine ⟨scheme, afterScheme, rfl, hscheme, fun hnil => hauthority ?_⟩
  rw [List.append_assoc, cut_append hscheme, List.cons_append, cut_cons_self]
  show ((afterScheme ++ ['/']).dropWhile isSlash).takeWhile (!endsAuthority ·) = []
  rw [List.dropWhile_append, hnil]
  rfl

theorem parts_eq {scheme afterScheme rest : List Char} (hscheme : ':' ∉ scheme)
    (hhost : afterScheme.dropWhile isSlash ≠ [])
    (hclean : clean url.toList = scheme ++ ':' :: afterScheme ++ '/' :: rest) :
    parts url =
      { scheme
        authority := (afterScheme.dropWhile isSlash).takeWhile (!endsAuthority ·)
        path := pathPart ((afterScheme.dropWhile isSlash).dropWhile (!endsAuthority ·) ++ '/' :: rest)
        query := queryPart
          ((afterScheme.dropWhile isSlash).dropWhile (!endsAuthority ·) ++ '/' :: rest) } := by
  have hslashes : (afterScheme ++ '/' :: rest).dropWhile isSlash =
      afterScheme.dropWhile isSlash ++ '/' :: rest := by
    rw [List.dropWhile_append, if_neg (by simpa using hhost)]
  rw [parts, hclean, List.append_assoc, cut_append hscheme, List.cons_append, cut_cons_self]
  simp only [Option.getD_some, List.append_nil]
  rw [hslashes, takeWhile_append_cons (by decide), dropWhile_append_cons (by decide)]

/-- A base that names its host when a slash follows names it whatever follows, and all that follows
belongs to the path and the query. -/
theorem exists_parts_append (husable : isUsable (base ++ "/")) (hbase : IsUnmarked base.toList) :
    ∃ before : List Char, IsUnmarked before ∧ ∀ suffix, IsSuffix suffix →
      isUsable (base ++ String.ofList suffix) ∧
      (parts (base ++ String.ofList suffix)).path = before ++ pathPart (visible suffix) ∧
      (parts (base ++ String.ofList suffix)).query = queryPart (visible suffix) := by
  obtain ⟨start, hstart, hclean⟩ := exists_clean_append base.toList
  have hslash : clean (base ++ "/").toList = start ++ ['/'] := by
    rw [String.toList_append]
    exact hclean ['/'] ⟨⟨[], rfl⟩, [], '/', rfl, rfl⟩
  obtain ⟨scheme, afterScheme, rfl, hscheme, hhost⟩ := exists_scheme husable hslash
  have hbefore : IsUnmarked ((afterScheme.dropWhile isSlash).dropWhile (!endsAuthority ·)) := by
    intro c hc
    have hmem := (List.dropWhile_sublist _).mem ((List.dropWhile_sublist _).mem hc)
    exact hbase c (hstart.mem (List.mem_append_right _ (List.mem_cons_of_mem _ hmem)))
  refine ⟨_, hbefore, fun suffix hsuffix => ?_⟩
  obtain ⟨rest, hhead⟩ : ∃ rest, visible suffix = '/' :: rest := by
    obtain ⟨rest, rfl⟩ := hsuffix.head
    exact ⟨visible rest, rfl⟩
  have hcleaned : clean (base ++ String.ofList suffix).toList =
      scheme ++ ':' :: afterScheme ++ '/' :: rest := by
    rw [String.toList_append, String.toList_ofList, hclean suffix hsuffix, hhead]
  have hparts := parts_eq hscheme hhost hcleaned
  refine ⟨?_, ?_, ?_⟩
  · rw [isUsable, parts_eq hscheme hhost hslash] at husable
    rw [isUsable, hparts]
    exact husable
  · rw [hparts, hhead]
    exact pathPart_append hbefore _
  · rw [hparts, hhead]
    exact queryPart_append hbefore _

end Base

/-! ### What is asked for -/

section Target

variable {base : String}

theorem notMem_encode {kept : Char → Bool} (hkept : kept c = false ∨ c ∉ cs) (hpercent : c ≠ '%')
    (hdigit : ∀ n < 16, c ≠ hexDigit n) : c ∉ encode kept cs := by
  intro hmem
  rcases mem_encode hmem with ⟨hcs, hc⟩ | hc | ⟨n, hn, hc⟩
  · rcases hkept with hkept | hno
    · rw [hkept] at hc
      cases hc
    · exact hno hcs
  · exact hpercent hc
  · exact hdigit n hn hc

/-- The segments that are left of a path hold nothing that would end them. -/
theorem resolve_segments_plain (path : List Char) :
    ∀ s ∈ resolve [] (segments path), IsUnmarked s ∧ '/' ∉ s := by
  intro s hs
  obtain ⟨i, hi⟩ := List.mem_iff_getElem?.1 hs
  rcases getElem?_resolve hi with hnone | rfl | ⟨t, ht, -, rfl⟩
  · cases hnone
  · exact ⟨List.forall_mem_nil _, List.not_mem_nil⟩
  · have hslash : '/' ∉ t := fun hmem =>
      Bool.noConfusion ((mem_splitOnP (List.mem_of_mem_tail ht)).2 '/' hmem)
    refine ⟨fun c hc => ⟨?_, ?_⟩, notMem_encode (.inr hslash) (by decide) (by decide)⟩
    · rintro rfl
      exact notMem_encode (.inl rfl) (by decide) (by decide) hc
    · rintro rfl
      exact notMem_encode (.inl rfl) (by decide) (by decide) hc

theorem ofText_target {url : String} (h : segments (parts url).path ≠ []) :
    Address.ofText (target url) =
      { path := ([] :: resolve [] (segments (parts url).path)).map decode
        query := (parts url).query.map fun q => String.ofList (encode keptInQuery q)
        fragment := none } := by
  have hne : resolve [] (segments (parts url).path) ≠ [] := resolve_ne_nil h
  rw [target, if_neg (by simpa using hne), Address.ofText_written (resolve_segments_plain _),
    Option.map_map]
  · rfl
  · intro q hq
    obtain ⟨q', -, rfl⟩ := Option.map_eq_some_iff.1 hq
    exact notMem_encode (.inl rfl) (by decide) (by decide)

/-- **What the host is asked for under a base.** All that the dot segments of the base come to is settled
before the labels that lead to a text; the text may still undo it. -/
theorem exists_ofText_target (husable : isUsable (base ++ "/")) (hbase : IsUnmarked base.toList)
    {lead : List (List Char)} (hlead : AreLabels lead) (hne : lead ≠ []) :
    ∃ settled : List (List Char),
      (IsSuffix (written lead none) →
        (Address.ofText (target (base ++ String.ofList (written lead none)))).path =
          ([] :: settled.reverse).map decode) ∧
      ∀ (text : List Char) (tail : List (List Char)) (query : Option (List Char)), AreLabels tail →
        (∀ q ∈ query, ∀ c ∈ q, keptInQuery c) → IsSuffix (written (lead ++ text :: tail) query) →
          isUsable (base ++ String.ofList (written (lead ++ text :: tail) query)) ∧
          Address.ofText (target (base ++ String.ofList (written (lead ++ text :: tail) query))) =
            { path := ([] :: resolve settled
                ((pathPart (visible text ++ written tail query)).splitOnP isSlash)).map decode
              query := (queryPart (written (lead ++ visible text :: tail) query)).map fun q =>
                String.ofList (encode keptInQuery q)
              fragment := none } := by
  obtain ⟨before, -, hparts⟩ := exists_parts_append husable hbase
  obtain ⟨first, lead, rfl⟩ := List.exists_cons_of_ne_nil hne
  obtain ⟨settled, hsettled⟩ := exists_resolve_append [] (segments before)
  have hnonempty : ∀ rest, segments before ++ (first :: lead ++ rest) ≠ [] := fun rest => by
    simp
  have hresolve : ∀ rest, resolve [] (segments before ++ (first :: lead ++ rest)) =
      resolve (((first :: lead).map (encode keptInPath)).reverse ++ settled) rest := fun rest => by
    rw [List.cons_append, hsettled, ← List.cons_append, resolve_append hlead.not_isDots]
  refine ⟨((first :: lead).map (encode keptInPath)).reverse ++ settled, fun hsuffix => ?_,
    fun text tail query htail hquery hsuffix => ?_⟩
  · obtain ⟨-, hpath, -⟩ := hparts _ hsuffix
    have hsegments : segments (parts (base ++ String.ofList (written (first :: lead) none))).path =
        segments before ++ (first :: lead ++ []) := by
      rw [hpath, visible_written, hlead.map_visible, Option.map_none, pathPart_written hlead.isUnmarked,
        segments, splitOnP_append_flatMap rfl fun t ht c hc => isSlash_of_isLabelChar c (hlead t ht c hc),
        List.tail_append_of_ne_nil (List.splitOnP_ne_nil _ _), List.append_nil, segments]
    rw [ofText_target (hsegments ▸ hnonempty _), hsegments, hresolve]
    rfl
  · obtain ⟨husable, hpath, hq⟩ := hparts _ hsuffix
    rw [visible_laidOut hlead htail hquery] at hpath hq
    have hsegments : segments
        (parts (base ++ String.ofList (written (first :: lead ++ text :: tail) query))).path =
          segments before ++ (first :: lead ++
            (pathPart (visible text ++ written tail query)).splitOnP isSlash) := by
      rw [hpath, segments, splitOnP_laidOut rfl isSlash_of_isLabelChar hlead,
        List.tail_append_of_ne_nil (List.splitOnP_ne_nil _ _), segments]
    rw [ofText_target (hsegments ▸ hnonempty _), hsegments, hresolve, hq]
    exact ⟨husable, rfl⟩

/-- Nothing of the text is lost in what the host is asked for. -/
structure IsKept (text : List Char) : Prop extends IsPiece isSlash text where
  skipped : ∀ c ∈ text, isSkipped c = false
  dots : text ≠ ['.', '.'] ∧ text ≠ ['.']

theorem isKept_iff {text : List Char} : IsKept text ↔
    IsPiece isSlash text ∧ (text.all fun c => !isSkipped c) ∧ text ≠ ['.', '.'] ∧ text ≠ ['.'] := by
  have hskipped : (text.all fun c => !isSkipped c) ↔ ∀ c ∈ text, isSkipped c = false := by
    simp only [List.all_eq_true, Bool.not_eq_true']
  rw [hskipped]
  exact ⟨fun h => ⟨h.toIsPiece, h.skipped, h.dots⟩, fun h => ⟨h.1, h.2.1, h.2.2⟩⟩

instance (text : List Char) : Decidable (IsKept text) :=
  decidable_of_iff _ isKept_iff.symm

/-- **A text that has been put between labels is what the host is asked for there** exactly if besides
nothing of it is skipped, and it is not made of dots. -/
theorem map_decode_resolve_iff {tail : List (List Char)} (htail : AreLabels tail)
    (settled : List (List Char)) (text : List Char) (query : Option (List Char)) :
    (resolve settled ((pathPart (visible text ++ written tail query)).splitOnP isSlash)).map decode =
        settled.reverse.map decode ++ (text :: tail).map (·.flatMap String.utf8EncodeChar) ↔
      IsKept text := by
  constructor
  · intro h
    -- the text is read right after what has been settled, where dots leave nothing or a piece stands
    obtain ⟨shown, hshown, hdecode⟩ : ∃ shown,
        (resolve settled ((pathPart (visible text ++ written tail query)).splitOnP
          isSlash))[settled.length]? = some shown ∧
        decode shown = text.flatMap String.utf8EncodeChar := by
      rw [← Option.map_eq_some_iff, ← List.getElem?_map, h, List.getElem?_append_right (by simp)]
      simp
    rcases getElem?_resolve hshown with hbefore | rfl | ⟨piece, hpiece, hdots, rfl⟩
    · rw [List.getElem?_eq_none (by simp)] at hbefore
      cases hbefore
    · obtain ⟨rfl, -⟩ := eq_of_sublist_of_decode_eq (List.nil_sublist text) hdecode
      exact ⟨⟨List.forall_mem_nil _, List.forall_mem_nil _, rfl⟩, List.forall_mem_nil _, by decide⟩
    · rw [decode_encode] at hdecode
      obtain ⟨rfl, hescape⟩ :=
        eq_of_mem_splitOnP_of_decode_eq rfl isSlash_of_isLabelChar htail List.filter_sublist hpiece hdecode
      obtain ⟨hsub, hnone⟩ := mem_splitOnP hpiece
      rw [isDots_iff hescape, not_or] at hdots
      refine ⟨⟨fun c hc => isUnmarked_pathPart _ c (hsub.mem hc), hnone, hescape⟩, ?_, hdots⟩
      intro c hc
      rcases sublist_or_mem_of_mem_splitOnP rfl isSlash_of_isLabelChar htail hpiece with hvisible | hlabel
      · simpa using (List.mem_filter.1 (hvisible.mem hc)).2
      · exact (inert_of_isLabelChar (htail _ hlabel c hc)).2.2
  · intro h
    have hvisible := visible_of_forall h.skipped
    have hdots : ¬ IsDots text := fun hdots => not_or.2 h.dots ((isDots_iff h.escape).1 hdots)
    have hpieces : (pathPart (text ++ written tail query)).splitOnP isSlash = text :: tail := by
      rw [splitOnP_pathPart_append rfl isSlash_of_isLabelChar htail query h.unmarked,
        List.splitOnP_eq_singleton h.whole, List.singleton_append]
    have hread := (map_decode_splitOnP_iff rfl isSlash_of_isLabelChar htail text query).2 h.toIsPiece
    have hresolve := resolve_append (List.forall_mem_cons.2 ⟨hdots, htail.not_isDots⟩) settled []
    rw [List.append_nil] at hresolve
    rw [hvisible, ← hread, hpieces, hresolve, resolve, List.reverse_append, List.reverse_reverse,
      List.map_append, List.map_map, (funext decode_encode : decode ∘ encode keptInPath = decode)]

/-- **The host is asked for a text between labels** exactly if the text is kept. -/
theorem ofText_target_laidOut_iff (husable : isUsable (base ++ "/")) (hbase : IsUnmarked base.toList)
    {lead tail : List (List Char)} (hlead : AreLabels lead) (hne : lead ≠ []) (htail : AreLabels tail)
    {query : Option (List Char)} (hquery : ∀ q ∈ query, ∀ c ∈ q, keptInQuery c) {text : List Char}
    (hbefore : IsSuffix (written lead none))
    (hsuffix : IsSuffix (written (lead ++ text :: tail) query)) :
    isUsable (base ++ String.ofList (written (lead ++ text :: tail) query)) ∧
      (Address.ofText (target (base ++ String.ofList (written (lead ++ text :: tail) query))) =
          { path := (Address.ofText (target (base ++ String.ofList (written lead none)))).path ++
              (text :: tail).map (·.flatMap String.utf8EncodeChar)
            query := query.map String.ofList
            fragment := none } ↔
        IsKept text) := by
  obtain ⟨settled, hpath, htarget⟩ := exists_ofText_target husable hbase hlead hne
  obtain ⟨husable, haddress⟩ := htarget text tail query htail hquery hsuffix
  have hiff := map_decode_resolve_iff htail settled text query
  rw [hpath hbefore, haddress]
  refine ⟨husable, ?_, ?_⟩
  · intro h
    have hsegments := congrArg Address.path h
    rw [List.map_cons, List.map_cons, List.cons_append, List.cons.injEq] at hsegments
    exact hiff.1 hsegments.2
  · intro h
    have hunmarked : ∀ t ∈ lead ++ text :: tail, IsUnmarked t := List.forall_mem_append.2
      ⟨hlead.isUnmarked, List.forall_mem_cons.2 ⟨h.unmarked, htail.isUnmarked⟩⟩
    have hmark : ∀ q ∈ query, '#' ∉ q := fun q hq hmem => by cases hquery q hq '#' hmem
    refine Address.ext ?_ ?_ rfl
    · rw [List.map_cons, hiff.2 h]
      rfl
    · show (queryPart (written (lead ++ visible text :: tail) query)).map _ = _
      rw [visible_of_forall h.skipped, queryPart_written hunmarked hmark]
      cases query with
      | none => rfl
      | some q => exact congrArg (some ∘ String.ofList) (encode_of_kept (hquery q rfl))

end Target

end EventWorker.Url
