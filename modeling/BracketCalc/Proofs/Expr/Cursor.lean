import BracketCalc.Proofs.Expr.Verdict
import BracketCalc.Proofs.Source.Open
import BracketCalc.Proofs.Token.Closing
/-!
# Reading from a cursor

Reading may start anywhere among the tokens, inside a group or outside all of
them.  Inside a group it ends with the bracket that closes the group, the first
right bracket with balanced tokens before it, and leaves the cursor behind it.
`GroupRead` says so, and what is told if there is no such bracket; `RootRead`
says what comes of reading outside all groups.

A group in a group is read by a reading of its own, which starts behind its left
bracket, and the outer reading goes on where that one stopped (`goOn_left`).
-/

namespace BracketCalc.Tree

open Token

/-- Told at the token, with the span that its text has from its start on. -/
def ToldAt (host : Host) (e : ParseError) (topic : Topic) (t : Token) :
    Except ParseError Tree → Prop :=
  Verdict.Told host e topic t.text ⟨t.span.start, t.span.start + t.text.length⟩

/-- What comes of reading the inside of a group from the cursor on, and the cursor that is left. -/
inductive GroupRead (host : Host) (tokens : List Token) (cursor : Nat) (depth : Int) :
    Except ParseError Tree × Int → Prop where
  | closed {close : Nat} {opening closing : Token} {items : List Tree} :
      ClosesAt tokens cursor close → (∀ other, ClosesAt tokens cursor other → other = close) →
      tokens[cursor - 1]? = some opening → tokens[close]? = some closing →
      Segment depth (tokens.extract cursor close) items →
      Expr.kindsOf items = (tokens.extract cursor close).map Token.kind →
      GroupRead host tokens cursor depth
        (.ok (.group items ⟨opening.span.start, closing.span.stop⟩ depth), close + 1)
  | unclosed {t : Token} {result : Except ParseError Tree} :
      (∀ close, ¬ ClosesAt tokens cursor close) → LastUnclosed (tokens.drop cursor) t →
      ToldAt host (.unclosed t) .unclosedBracket t result →
      GroupRead host tokens cursor depth (result, tokens.length)
  | unclosedItself {opening : Token} {result : Except ParseError Tree} :
      (∀ close, ¬ ClosesAt tokens cursor close) →
      (∀ t, ¬ LastUnclosed (tokens.drop cursor) t) → tokens[cursor - 1]? = some opening →
      ToldAt host (.unclosed opening) .unclosedBracket opening result →
      GroupRead host tokens cursor depth (result, tokens.length)

/-- What comes of reading the tokens ahead of the cursor outside all groups. -/
inductive RootRead (host : Host) (tokens ahead : List Token) (cursor : Int) :
    Except ParseError Tree × Int → Prop where
  | surplus {front rest : List Token} {t : Token} {result : Except ParseError Tree} :
      ahead = front ++ t :: rest → NoSurplus front → lefts (front ++ [t]) < rights (front ++ [t]) →
      ToldAt host (.surplusRight t) .surplusBracket t result →
      RootRead host tokens ahead cursor (result, cursor + front.length + 1)
  | unclosed {t : Token} {result : Except ParseError Tree} :
      NoSurplus ahead → LastUnclosed ahead t →
      ToldAt host (.unclosed t) .unclosedBracket t result →
      RootRead host tokens ahead cursor (result, cursor + ahead.length)
  | whole {items : List Tree} :
      Balanced ahead → Segment 0 ahead items → Expr.kindsOf items = ahead.map Token.kind →
      RootRead host tokens ahead cursor
        (.ok (.group items (wholeSpan tokens) 0), cursor + ahead.length)

/-- Reads the tokens ahead of the cursor into a group that may have items already. -/
def goOn (tokens ahead : List Token) (cursor : Int) (group : OpenGroup) :
    Except ParseError Tree × Int :=
  let (result, rest) := fill (wholeSpan tokens) group [] ahead
  (result, cursor + (ahead.length - rest.length : Nat))

variable {host : Host} {limit cursor : Nat} {tokens ahead front rest inside : List Token}
  {depth start : Int} {t opening closing : Token} {whole : Span} {group inner next : OpenGroup}
  {above outer : List OpenGroup} {items : List Tree} {result : Except ParseError Tree}

/-! ### Where reading starts -/

theorem tokensFrom?_natCast (tokens : List Token) (cursor : Nat) :
    tokensFrom? tokens cursor = some (tokens.drop cursor) := by
  rw [tokensFrom?, if_pos (Int.natCast_nonneg cursor), Int.toNat_natCast]

theorem mem_of_tokensFrom? (h : tokensFrom? tokens start = some ahead) (ht : t ∈ ahead) :
    t ∈ tokens := by
  unfold tokensFrom? at h
  split at h
  · cases h
    exact List.mem_of_mem_drop ht
  · split at h
    · cases h
      rcases List.mem_append.1 ht with ht | ht
      · exact List.mem_of_mem_drop ht
      · exact ht
    · cases h

/-- What is ahead of a cursor ends where the tokens end. -/
theorem add_length_of_tokensFrom? (h : tokensFrom? tokens start = some ahead) :
    start + ahead.length = max start tokens.length := by
  unfold tokensFrom? at h
  split at h
  · cases h
    rw [List.length_drop]
    omega
  · split at h
    · cases h
      rw [List.length_append, List.length_drop]
      omega
    · cases h

theorem groupAt_root (htwo : 2 ≤ tokens.length) (hahead : tokensFrom? tokens start = some ahead) :
    groupAt tokens start 0 = goOn tokens ahead start ⟨none, 0, []⟩ := by
  match tokens, htwo with
  | a :: b :: more, _ => simp [groupAt, goOn, hahead]

theorem groupAt_inside (htwo : 2 ≤ tokens.length) (hopening : tokens[cursor]? = some opening)
    (hdepth : 0 < depth) :
    groupAt tokens (cursor + 1 : Nat) depth =
      goOn tokens (tokens.drop (cursor + 1)) (cursor + 1 : Nat) ⟨some opening, depth, []⟩ := by
  have hbefore : tokensFrom? tokens (((cursor + 1 : Nat) : Int) - 1) =
      some (tokens.drop cursor) := by
    rw [← tokensFrom?_natCast]
    congr 1
    omega
  have hhead : (tokens.drop cursor).head? = some opening := by
    rw [List.head?_drop, hopening]
  match tokens, htwo with
  | a :: b :: more, _ =>
      simp only [groupAt, goOn, tokensFrom?_natCast, hbefore, if_pos hdepth, Option.bind_some,
        hhead, Option.isNone_some, Bool.false_eq_true, and_false, if_false]

/-! ### Where reading stops -/

theorem goOn_of_fill (cursor : Int) (h : fill (wholeSpan tokens) group [] ahead = (result, rest)) :
    goOn tokens ahead cursor group = (result, cursor + (ahead.length - rest.length : Nat)) := by
  rw [goOn, h]

/-- Reading looks at the tokens one after another. -/
theorem fill_isSuffix (whole : Span) (inner : OpenGroup) (outer : List OpenGroup)
    (tokens : List Token) : (fill whole inner outer tokens).2 <:+ tokens := by
  induction tokens generalizing inner outer with
  | nil =>
      unfold fill
      split <;> exact List.suffix_refl []
  | cons t rest ih =>
      have hrest : rest <:+ t :: rest := List.suffix_cons t rest
      unfold fill
      split
      · exact (ih _ _).trans hrest
      · exact (ih _ _).trans hrest
      · split
        · exact hrest
        · exact hrest
        · exact (ih _ _).trans hrest
      · exact hrest

/-- Reading starts with what is ahead of the cursor, or does not start at all. -/
theorem groupAt_cases (tokens : List Token) (start depth : Int) :
    (∃ result, groupAt tokens start depth = (result, start)) ∨
      ∃ ahead opening, tokensFrom? tokens start = some ahead ∧
        groupAt tokens start depth = goOn tokens ahead start ⟨opening, depth, []⟩ := by
  unfold groupAt
  split
  · exact .inl ⟨_, rfl⟩
  · exact .inl ⟨_, rfl⟩
  · exact .inl ⟨_, rfl⟩
  · cases hahead : tokensFrom? tokens start with
    | none => exact .inl ⟨_, rfl⟩
    | some ahead =>
        dsimp only
        by_cases hnone : 0 < depth ∧
            (if 0 < depth then (tokensFrom? tokens (start - 1)).bind List.head? else none).isNone
        · rw [if_pos hnone]
          exact .inl ⟨_, rfl⟩
        · rw [if_neg hnone]
          exact .inr ⟨ahead, _, rfl, rfl⟩

/-- The cursor moves from token to token, and not beyond the last one. -/
theorem groupAt_cursor (tokens : List Token) (start depth : Int) :
    start ≤ (groupAt tokens start depth).2 ∧
      (groupAt tokens start depth).2 ≤ max start tokens.length := by
  rcases groupAt_cases tokens start depth with ⟨result, hstays⟩ | ⟨ahead, opening, hahead, hread⟩
  · rw [hstays]
    exact ⟨Int.le_refl start, Int.le_max_left start _⟩
  · have hend := add_length_of_tokensFrom? hahead
    rw [hread]
    show start ≤ start + ((_ - _ : Nat) : Int) ∧ start + ((_ - _ : Nat) : Int) ≤ max start _
    omega

/-! ### Groups in groups -/

/-- A group that a bracket of its own opens, as all groups do that are opened inside it. -/
structure HasBracket (group : OpenGroup) : Prop where
  opening_ne_none : group.opening ≠ none
  depth_nonneg : 0 ≤ group.depth

theorem HasBracket.push (h : HasBracket group) (item : Tree) : HasBracket (group.push item) :=
  ⟨h.opening_ne_none, h.depth_nonneg⟩

theorem hasBracket_inside (hdepth : 0 ≤ group.depth) (opening : Token) :
    HasBracket (group.inside opening) := by
  rw [OpenGroup.inside, if_pos hdepth]
  exact ⟨Option.some_ne_none opening, Int.le_add_one hdepth⟩

/-- A group with a bracket of its own is read without regard to the groups around it, and what comes
of it is added to the next of them. -/
theorem fill_append_outer (hinner : HasBracket inner) (habove : ∀ group ∈ above, HasBracket group)
    (whole : Span) (next : OpenGroup) (outer : List OpenGroup) (tokens : List Token) :
    fill whole inner (above ++ next :: outer) tokens =
      match fill whole inner above tokens with
      | (.ok tree, rest) => fill whole (next.push tree) outer rest
      | (.error e, rest) => (.error e, rest) := by
  induction tokens generalizing inner above with
  | nil =>
      obtain ⟨opening, hopening⟩ := Option.ne_none_iff_exists'.1 hinner.opening_ne_none
      simp only [fill, hopening]
  | cons t rest ih =>
      obtain ⟨opening, hopening⟩ := Option.ne_none_iff_exists'.1 hinner.opening_ne_none
      cases hkind : t.kind with
      | literal text =>
          simp only [fill, hkind]
          exact ih (hinner.push _) habove
      | left =>
          simp only [fill, hkind]
          exact ih (hasBracket_inside hinner.depth_nonneg t)
            (List.forall_mem_cons.2 ⟨hinner, habove⟩)
      | right =>
          cases above with
          | nil => simp only [fill, hkind, hopening, List.nil_append]
          | cons outward above =>
              obtain ⟨houtward, habove⟩ := List.forall_mem_cons.1 habove
              simp only [fill, hkind, hopening, List.cons_append]
              exact ih (houtward.push _) habove
      | other => simp only [fill, hkind]

/-- A group in a group is read from the cursor behind its left bracket, and then reading goes on
from the cursor that is left. -/
theorem goOn_left (htwo : 2 ≤ tokens.length) (hopening : tokens[cursor]? = some opening)
    (hleft : opening.kind = .left) (hdepth : 0 ≤ group.depth) :
    goOn tokens (tokens.drop cursor) cursor group =
      match groupAt tokens (cursor + 1 : Nat) (group.depth + 1) with
      | (.ok tree, next) => goOn tokens (tokens.drop next.toNat) next (group.push tree)
      | (.error e, next) => (.error e, next) := by
  obtain ⟨hlt, hget⟩ := List.getElem?_eq_some_iff.1 hopening
  have hdrop : tokens.drop cursor = opening :: tokens.drop (cursor + 1) := by
    rw [List.drop_eq_getElem_cons hlt, hget]
  have hinside : group.inside opening = ⟨some opening, group.depth + 1, []⟩ := by
    rw [OpenGroup.inside, if_pos hdepth]
  have hread := fill_append_outer (hasBracket_inside hdepth opening) (List.forall_mem_nil _)
    (wholeSpan tokens) group [] (tokens.drop (cursor + 1))
  rw [List.nil_append, ← fill_left hleft, ← hdrop] at hread
  obtain ⟨read, hsuffix⟩ :=
    fill_isSuffix (wholeSpan tokens) (group.inside opening) [] (tokens.drop (cursor + 1))
  rw [groupAt_inside htwo hopening (by omega), ← hinside]
  rcases hnested : fill (wholeSpan tokens) (group.inside opening) [] (tokens.drop (cursor + 1))
    with ⟨nested, behind⟩
  rw [hnested] at hread hsuffix
  have hlength : (tokens.drop cursor).length = read.length + behind.length + 1 := by
    rw [hdrop, ← hsuffix, List.length_cons, List.length_append]
  rw [goOn_of_fill _ hnested, ← hsuffix, List.length_append, Nat.add_sub_cancel]
  cases nested with
  | error e =>
      rw [goOn_of_fill _ hread, hlength]
      refine Prod.ext rfl ?_
      dsimp only
      omega
  | ok tree =>
      have hnext : tokens.drop (((cursor + 1 : Nat) : Int) + read.length).toNat = behind := by
        rw [← Int.natCast_add, Int.toNat_natCast, ← List.drop_drop, ← hsuffix, List.drop_left]
      dsimp only at hread ⊢
      rw [hnext]
      rcases hlast : fill (wholeSpan tokens) (group.push tree) [] behind with ⟨last, rest⟩
      rw [hlast] at hread
      have hrest : rest.length ≤ behind.length := by
        have hend := (fill_isSuffix (wholeSpan tokens) (group.push tree) [] behind).length_le
        rwa [hlast] at hend
      rw [goOn_of_fill _ hread, goOn_of_fill _ hlast, hlength]
      refine Prod.ext rfl ?_
      dsimp only
      omega

/-! ### What comes of reading -/

theorem toldAt {e : ParseError} {topic : Topic} (htopic : topic.isParsing = true)
    (hstop : e.stop host = ParseError.stop.blame host topic t) :
    ToldAt host e topic t (.error e) :=
  ⟨rfl, hstop ▸ ParseError.blames htopic host t⟩

theorem Segment.fill_closed (h : Segment depth inside items) (hdepth : 0 ≤ depth)
    (hright : closing.kind = .right) (whole : Span) (rest : List Token) :
    fill whole ⟨some opening, depth, []⟩ [] (inside ++ closing :: rest) =
      (.ok (.group items ⟨opening.span.start, closing.span.stop⟩ depth), rest) := by
  rw [h.fill_append hdepth rfl]
  obtain ⟨kind, span⟩ := closing
  cases hright
  simp [fill, OpenGroup.pushAll, OpenGroup.close]

theorem Segment.fill_open (h : Segment depth inside items) (hdepth : 0 ≤ depth) (whole : Span) :
    fill whole ⟨some opening, depth, []⟩ [] inside = (.error (.unclosed opening), []) := by
  rw [h.fill_to_end hdepth rfl]
  rfl

theorem Segment.groupRead (h : Segment depth inside items) (host : Host)
    (hopening : tokens[cursor - 1]? = some opening) (hright : closing.kind = .right)
    (hdrop : tokens.drop cursor = inside ++ closing :: rest) :
    GroupRead host tokens cursor depth
      (.ok (.group items ⟨opening.span.start, closing.span.stop⟩ depth),
        (cursor + inside.length : Nat) + 1) := by
  have hcloses := ClosesAt.of_drop_eq hdrop h.balanced hright
  have hextract := extract_of_drop_eq hdrop
  refine .closed hcloses (fun other => hcloses.unique) hopening (getElem?_of_drop_eq hdrop) ?_ ?_
  · rwa [hextract]
  · rw [hextract, h.map_kind]

/-- Inside a group reading comes to the bracket that closes it, or to the end of the tokens. -/
theorem groupRead (host : Host) (htwo : 2 ≤ tokens.length) (hknown : Known tokens)
    (hpos : 1 ≤ cursor) (hle : cursor ≤ tokens.length) (hdepth : 1 ≤ depth) :
    GroupRead host tokens cursor depth (groupAt tokens cursor depth) := by
  obtain ⟨before, rfl⟩ := Nat.exists_eq_add_of_le' hpos
  obtain ⟨opening, hopening⟩ : ∃ opening, tokens[before]? = some opening :=
    ⟨_, List.getElem?_eq_getElem (by omega)⟩
  have hahead : Known (tokens.drop (before + 1)) := fun t ht => hknown t (List.mem_of_mem_drop ht)
  have hend : ((before + 1 : Nat) : Int) + ((tokens.drop (before + 1)).length - 0 : Nat) =
      tokens.length := by
    rw [List.length_drop]
    omega
  rw [groupAt_inside htwo hopening (by omega)]
  rcases balanced_or_closed_or_unclosed (tokens.drop (before + 1)) with hcase | hcase | hcase
  · obtain ⟨items, hitems⟩ := exists_segment hcase hahead depth
    rw [goOn_of_fill _ (hitems.fill_open (by omega) _), List.length_nil, hend]
    refine .unclosedItself (fun close h => ?_) hcase.not_lastUnclosed hopening (toldAt rfl rfl)
    exact hcase.noSurplus.not_closed h.closed
  · obtain ⟨inside, closing, rest, hdrop, hinside, hright⟩ := hcase
    rw [hdrop] at hahead
    obtain ⟨items, hitems⟩ := exists_segment hinside (known_append.1 hahead).1 depth
    have hstop : ((before + 1 : Nat) : Int) +
        ((inside ++ closing :: rest).length - rest.length : Nat) =
          (before + 1 + inside.length : Nat) + 1 := by
      rw [List.length_append, List.length_cons]
      omega
    rw [hdrop, goOn_of_fill _ (hitems.fill_closed (by omega) hright _ rest), hstop]
    exact hitems.groupRead host hopening hright hdrop
  · obtain ⟨front, unclosed, inside, hdrop, hfront, hleft, hinside⟩ := hcase
    have hnone : NoSurplus (tokens.drop (before + 1)) :=
      hdrop ▸ noSurplus_of_unclosed hfront hleft hinside
    have hread : fill (wholeSpan tokens) ⟨some opening, depth, []⟩ [] (tokens.drop (before + 1)) =
        (.error (.unclosed unclosed), []) := by
      rw [hdrop] at hahead ⊢
      have hdepth : 0 ≤ depth := by omega
      exact fill_append_unclosed _ [] hdepth hahead hfront hleft hinside
    rw [goOn_of_fill _ hread, List.length_nil, hend]
    refine .unclosed (fun close h => hnone.not_closed h.closed) ?_ (toldAt rfl rfl)
    exact lastUnclosed_iff.2 ⟨front, inside, hdrop, hleft, hinside⟩

/-- Outside all groups reading comes to a surplus bracket, or to the end of the tokens. -/
theorem rootRead (host : Host) (htwo : 2 ≤ tokens.length) (hknown : Known tokens)
    (hahead : tokensFrom? tokens start = some ahead) :
    RootRead host tokens ahead start (groupAt tokens start 0) := by
  have hknown : Known ahead := fun t ht => hknown t (mem_of_tokensFrom? hahead ht)
  rw [groupAt_root htwo hahead]
  rcases balanced_or_closed_or_unclosed ahead with hcase | hcase | hcase
  · obtain ⟨items, hitems⟩ := exists_segment hcase hknown 0
    rw [goOn_of_fill start (hitems.fill_eq (Int.le_refl 0) _)]
    exact .whole hcase hitems hitems.map_kind.symm
  · obtain ⟨front, t, rest, rfl, hfront, hright⟩ := hcase
    have hstop : start + ((front ++ t :: rest).length - rest.length : Nat) =
        start + front.length + 1 := by
      rw [List.length_append, List.length_cons]
      omega
    rw [goOn_of_fill start (fill_surplus _ (known_append.1 hknown).1 hfront hright rest), hstop]
    refine .surplus rfl hfront.noSurplus ?_ (toldAt rfl rfl)
    simp [lefts_cons, rights_cons, hright, hfront.even]
  · obtain ⟨front, opening, inside, rfl, hfront, hleft, hinside⟩ := hcase
    have hdepth : 0 ≤ (⟨none, 0, []⟩ : OpenGroup).depth := Int.le_refl 0
    rw [goOn_of_fill start (fill_append_unclosed _ [] hdepth hknown hfront hleft hinside)]
    refine .unclosed (noSurplus_of_unclosed hfront hleft hinside) ?_ (toldAt rfl rfl)
    exact lastUnclosed_iff.2 ⟨front, inside, rfl, hleft, hinside⟩

theorem rootRead_ne_tooDeep {stop : Int}
    (h : RootRead host tokens ahead start (result, stop)) : result ≠ .error .tooDeep := by
  rintro rfl
  cases h with
  | surplus _ _ _ htold => cases htold.1
  | unclosed _ _ htold => cases htold.1

/-! ### The limit on nesting -/

theorem groupWithin_of_shallow (hahead : tokensFrom? tokens start = some ahead)
    (hknown : Known ahead) (hdepth : 0 ≤ depth) (h : Shallow limit ahead) :
    groupWithin limit tokens start depth = groupAt tokens start depth := by
  have hfloor : (-depth).toNat = 0 := by omega
  have hwithin := (exceeds_eq_false_iff hknown).2 h
  simp [groupWithin, hahead, hfloor, hwithin]

theorem groupWithin_of_not_shallow (htwo : 2 ≤ tokens.length)
    (hahead : tokensFrom? tokens start = some ahead) (hknown : Known ahead) (hdepth : 0 ≤ depth)
    (h : ¬ Shallow limit ahead) :
    (groupWithin limit tokens start depth).1 = .error .tooDeep := by
  have hfloor : (-depth).toNat = 0 := by omega
  have hexceeds := mt (exceeds_eq_false_iff hknown).1 h
  simp [groupWithin, hahead, hfloor, htwo, hexceeds]

theorem groupWithin_of_none (limit : Nat) (htwo : 2 ≤ tokens.length)
    (hahead : tokensFrom? tokens start = none) :
    groupWithin limit tokens start 0 = (.error .noToken, start) := by
  match tokens, htwo with
  | a :: b :: more, _ => simp [groupWithin, groupAt, hahead, exceeds]

theorem untilTooDeep_le (limit opened : Nat) (tokens : List Token) :
    untilTooDeep limit opened tokens ≤ tokens.length := by
  fun_induction untilTooDeep limit opened tokens with
  | case1 => exact Nat.le_refl 0
  | case2 => simp
  | case3 _ _ _ _ _ ih => exact Nat.succ_le_succ ih
  | case4 _ _ _ _ ih => exact Nat.succ_le_succ ih
  | case5 _ _ _ _ _ ih => exact Nat.succ_le_succ ih

theorem groupWithin_cursor (limit : Nat) (tokens : List Token) (start depth : Int) :
    start ≤ (groupWithin limit tokens start depth).2 ∧
      (groupWithin limit tokens start depth).2 ≤ max start tokens.length := by
  unfold groupWithin
  dsimp only
  split
  · have hlooked := untilTooDeep_le limit 0 ((tokensFrom? tokens start).getD [])
    cases hahead : tokensFrom? tokens start with
    | none =>
        simp only [hahead, Option.getD_none, List.length_nil] at hlooked ⊢
        omega
    | some ahead =>
        have hend := add_length_of_tokensFrom? hahead
        simp only [hahead, Option.getD_some] at hlooked ⊢
        omega
  · exact groupAt_cursor tokens start depth

/-- Reading behind a left bracket consumes the tokens up to the bracket that closes the group, and
outside all groups it consumes all tokens, up to the first error.  It gives up where groups are
nested beyond the limit, and in no case does the cursor go back, or behind the last token. -/
theorem groupWithin_consumes (host : Host) (limit : Nat) (htwo : 2 ≤ tokens.length)
    (hknown : Known tokens) :
    (∀ (cursor : Nat) (depth : Int), 1 ≤ cursor → cursor ≤ tokens.length → 1 ≤ depth →
      (Shallow limit (tokens.drop cursor) →
        GroupRead host tokens cursor depth (groupWithin limit tokens cursor depth)) ∧
      (¬ Shallow limit (tokens.drop cursor) →
        (groupWithin limit tokens cursor depth).1 = .error .tooDeep)) ∧
    (∀ (start : Int) (ahead : List Token), tokensFrom? tokens start = some ahead →
      (Shallow limit ahead →
        RootRead host tokens ahead start (groupWithin limit tokens start 0)) ∧
      (¬ Shallow limit ahead → (groupWithin limit tokens start 0).1 = .error .tooDeep)) ∧
    (∀ start : Int, tokensFrom? tokens start = none →
      groupWithin limit tokens start 0 = (.error .noToken, start)) ∧
    ∀ start depth : Int, start ≤ (groupWithin limit tokens start depth).2 ∧
      (groupWithin limit tokens start depth).2 ≤ max start tokens.length := by
  refine ⟨fun cursor depth hpos hle hdepth => ?_, fun start ahead hahead => ?_,
    fun start => groupWithin_of_none limit htwo, groupWithin_cursor limit tokens⟩
  · have hahead := tokensFrom?_natCast tokens cursor
    have hknownAhead : Known (tokens.drop cursor) :=
      fun t ht => hknown t (mem_of_tokensFrom? hahead ht)
    constructor
    · intro hshallow
      rw [groupWithin_of_shallow hahead hknownAhead (by omega) hshallow]
      exact groupRead host htwo hknown hpos hle hdepth
    · exact groupWithin_of_not_shallow htwo hahead hknownAhead (by omega)
  · have hknownAhead : Known ahead := fun t ht => hknown t (mem_of_tokensFrom? hahead ht)
    constructor
    · intro hshallow
      rw [groupWithin_of_shallow hahead hknownAhead (Int.le_refl 0) hshallow]
      exact rootRead host htwo hknown hahead
    · exact groupWithin_of_not_shallow htwo hahead hknownAhead (Int.le_refl 0)

/-- The inner group is read to its end although the outer one is never closed. -/
theorem groupWithin_consumes_inner :
    2 ≤ (lex .separate "((1) 2".toList).length ∧ Known (lex .separate "((1) 2".toList) ∧
      groupWithin nestingLimit (lex .separate "((1) 2".toList) 2 2 =
        (.ok (.group [.literal ['1'] ⟨2, 3⟩] ⟨1, 4⟩ 2), 4) ∧
      GroupRead .plain (lex .separate "((1) 2".toList) 2 2
        (.ok (.group [.literal ['1'] ⟨2, 3⟩] ⟨1, 4⟩ 2), 4) := by
  have htwo : 2 ≤ (lex .separate "((1) 2".toList).length := by decide
  have hknown := known_lex .separate "((1) 2".toList
  have hread : groupWithin nestingLimit (lex .separate "((1) 2".toList) 2 2 =
      (.ok (.group [.literal ['1'] ⟨2, 3⟩] ⟨1, 4⟩ 2), 4) := by rfl
  have hahead : Known ((lex .separate "((1) 2".toList).drop 2) :=
    fun t ht => hknown t (List.mem_of_mem_drop ht)
  have hshallow : Shallow nestingLimit ((lex .separate "((1) 2".toList).drop 2) :=
    (exceeds_eq_false_iff hahead).1 (by decide)
  refine ⟨htwo, hknown, hread, ?_⟩
  rw [← hread]
  exact ((groupWithin_consumes .plain nestingLimit htwo hknown).1 2 2 (by decide) (by decide)
    (by decide)).1 hshallow

/-- Left brackets alone are not all consumed if there are more of them than the limit. -/
theorem not_rootRead_of_lefts {newlines : Newlines} {text : Text}
    (hlefts : nestingLimit < text.count '(') (hrights : ')' ∉ text) :
    2 ≤ (lex newlines text).length ∧ Known (lex newlines text) ∧
      ¬ RootRead host (lex newlines text) (lex newlines text) 0
        (groupWithin nestingLimit (lex newlines text) 0 0) := by
  have hknown := known_lex newlines text
  have hdeep : ¬ Shallow nestingLimit (lex newlines text) := not_shallow_lex hlefts hrights
  have htwo := two_le_length_of_not_shallow (by decide) hdeep
  refine ⟨htwo, hknown, fun h => rootRead_ne_tooDeep h ?_⟩
  exact groupWithin_of_not_shallow htwo (tokensFrom?_natCast _ 0) hknown (Int.le_refl 0) hdeep

theorem not_rootRead_lefts :
    2 ≤ (lex .separate (List.replicate 5000 '(')).length ∧
      Known (lex .separate (List.replicate 5000 '(')) ∧
      ¬ RootRead .plain (lex .separate (List.replicate 5000 '('))
        (lex .separate (List.replicate 5000 '(')) 0
        (groupWithin nestingLimit (lex .separate (List.replicate 5000 '(')) 0 0) := by
  apply not_rootRead_of_lefts
  · rw [List.count_replicate_self]
    decide
  · intro h
    exact absurd (List.eq_of_mem_replicate h) (by decide)

end BracketCalc.Tree
