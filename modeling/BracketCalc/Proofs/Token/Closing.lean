import BracketCalc.Proofs.Token.Brackets
/-!
# The bracket that closes

A right bracket with balanced tokens before it, from a cursor on, closes the
group whose left bracket stands before the cursor.  There is one such bracket at
most, and none if no bracket is surplus.
-/

namespace BracketCalc.Token

variable {tokens : List Token} {cursor close other : Nat} {t : Token}

/-- The right bracket at `close` matches a left bracket right before the cursor. -/
structure ClosesAt (tokens : List Token) (cursor close : Nat) : Prop where
  cursor_le : cursor ≤ close
  balanced : Balanced (tokens.extract cursor close)
  exists_right : ∃ t, tokens[close]? = some t ∧ t.kind = .right

theorem extract_of_drop_eq {inside rest : List Token}
    (h : tokens.drop cursor = inside ++ rest) :
    tokens.extract cursor (cursor + inside.length) = inside := by
  rw [List.extract_eq_take_drop, h, Nat.add_sub_cancel_left, List.take_left]

theorem getElem?_of_drop_eq {inside rest : List Token}
    (h : tokens.drop cursor = inside ++ t :: rest) :
    tokens[cursor + inside.length]? = some t := by
  rw [← List.getElem?_drop, h, List.getElem?_append_right (Nat.le_refl _), Nat.sub_self]
  rfl

theorem ClosesAt.of_drop_eq {inside rest : List Token}
    (h : tokens.drop cursor = inside ++ t :: rest) (hinside : Balanced inside)
    (hright : t.kind = .right) : ClosesAt tokens cursor (cursor + inside.length) := by
  refine ⟨Nat.le_add_right _ _, ?_, t, getElem?_of_drop_eq h, hright⟩
  rwa [extract_of_drop_eq h]

theorem ClosesAt.exists_drop_eq (h : ClosesAt tokens cursor close) :
    ∃ inside t rest, tokens.drop cursor = inside ++ t :: rest ∧ close = cursor + inside.length ∧
      Balanced inside ∧ t.kind = .right := by
  obtain ⟨t, hget, hright⟩ := h.exists_right
  obtain ⟨hlt, ht⟩ := List.getElem?_eq_some_iff.1 hget
  have hle := h.cursor_le
  have hlength : (tokens.extract cursor close).length = close - cursor := by
    rw [List.extract_eq_take_drop, List.length_take, List.length_drop]
    omega
  refine ⟨_, t, tokens.drop (close + 1), ?_, ?_, h.balanced, hright⟩
  · calc tokens.drop cursor
        = (tokens.drop cursor).take (close - cursor) ++
            (tokens.drop cursor).drop (close - cursor) := (List.take_append_drop _ _).symm
      _ = tokens.extract cursor close ++ tokens.drop close := by
          rw [List.drop_drop, List.extract_eq_take_drop, Nat.add_sub_of_le hle]
      _ = tokens.extract cursor close ++ t :: tokens.drop (close + 1) := by
          rw [List.drop_eq_getElem_cons hlt, ht]
  · omega

theorem ClosesAt.closed (h : ClosesAt tokens cursor close) : Closed (tokens.drop cursor) := by
  obtain ⟨inside, t, rest, hdrop, -, hinside, hright⟩ := h.exists_drop_eq
  exact ⟨inside, t, rest, hdrop, hinside, hright⟩

/-- Balanced tokens do not reach beyond a right bracket with balanced tokens before it. -/
theorem Balanced.length_le {inside rest inside' rest' : List Token} {t t' : Token}
    (h : inside ++ t :: rest = inside' ++ t' :: rest') (hinside : Balanced inside)
    (hright : t.kind = .right) (hinside' : Balanced inside') : inside'.length ≤ inside.length := by
  rcases List.append_eq_append_iff.1 h with ⟨more, hmore, hrest⟩ | ⟨more, hmore, -⟩
  · cases more with
    | nil => rw [hmore, List.append_nil]
    | cons u more =>
        obtain rfl : t = u := (List.cons.inj hrest).1
        have hclosed : Closed inside' := ⟨inside, t, more, hmore, hinside, hright⟩
        exact absurd hclosed hinside'.noSurplus.not_closed
  · rw [hmore, List.length_append]
    exact Nat.le_add_right _ _

theorem ClosesAt.unique (h : ClosesAt tokens cursor close) (hother : ClosesAt tokens cursor other) :
    other = close := by
  obtain ⟨inside, t, rest, hdrop, rfl, hinside, hright⟩ := h.exists_drop_eq
  obtain ⟨inside', t', rest', hdrop', rfl, hinside', hright'⟩ := hother.exists_drop_eq
  rw [hdrop] at hdrop'
  have hle := Balanced.length_le hdrop' hinside hright hinside'
  have hge := Balanced.length_le hdrop'.symm hinside' hright' hinside
  omega

theorem Balanced.not_lastUnclosed (h : Balanced tokens) (t : Token) : ¬ LastUnclosed tokens t := by
  rw [lastUnclosed_iff]
  rintro ⟨front, inside, rfl, hleft, hinside⟩
  have hmore := rights_lt_lefts_of_unclosed h.noSurplus.left hleft hinside
  have heven := h.even
  omega

end BracketCalc.Token
