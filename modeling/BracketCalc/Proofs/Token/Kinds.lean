import BracketCalc.Proofs.Token.Lexes
/-!
# The kinds of tokens

Where tokens stand does not matter to their kinds, so the kinds are read from a
text without counting its characters.
-/

namespace BracketCalc

def TokenKind.isLiteral : TokenKind → Bool
  | literal _ => true
  | left | right | other => false

namespace Token

/-- How many literals there are. -/
def literals (kinds : List TokenKind) : Nat := kinds.countP (·.isLiteral)

/-- The kinds that are no literals. -/
def brackets (kinds : List TokenKind) : List TokenKind := kinds.filter (! ·.isLiteral)

/-- The literal with the letters, the latest first, if there are any. -/
def pendingKind (letters : Text) : List TokenKind :=
  if letters = [] then [] else [.literal letters.reverse]

/-- The kinds of the tokens of the rest of a text, behind the letters of a literal that is being
read, the latest first. -/
def kindsFrom (newlines : Newlines) (letters : Text) : Text → List TokenKind
  | [] => pendingKind letters
  | c :: rest =>
      match newlines.role c with
      | .letter => kindsFrom newlines (c :: letters) rest
      | .skipped => kindsFrom newlines letters rest
      | .separator => pendingKind letters ++ kindsFrom newlines [] rest
      | .left => pendingKind letters ++ .left :: kindsFrom newlines [] rest
      | .right => pendingKind letters ++ .right :: kindsFrom newlines [] rest

variable {newlines : Newlines} {letters text : Text} {kinds : List TokenKind}

theorem literals_append (as bs : List TokenKind) :
    literals (as ++ bs) = literals as + literals bs :=
  List.countP_append

theorem brackets_append (as bs : List TokenKind) :
    brackets (as ++ bs) = brackets as ++ brackets bs :=
  List.filter_append as bs

theorem brackets_of_no_literals (h : literals kinds = 0) : brackets kinds = kinds := by
  refine List.filter_eq_self.2 fun kind hkind => ?_
  simpa using List.countP_eq_zero.1 h kind hkind

theorem literals_pendingKind (h : letters ≠ []) : literals (pendingKind letters) = 1 := by
  simp [pendingKind, h, literals, TokenKind.isLiteral]

theorem literals_pendingKind_eq_zero_iff : literals (pendingKind letters) = 0 ↔ letters = [] := by
  by_cases h : letters = []
  · simp [pendingKind, h, literals]
  · simp [literals_pendingKind h, h]

theorem brackets_pendingKind (letters : Text) : brackets (pendingKind letters) = [] := by
  by_cases h : letters = []
  · simp [pendingKind, h, brackets]
  · simp [pendingKind, h, brackets, TokenKind.isLiteral]

theorem map_kind_lexFrom (newlines : Newlines) (text : Text) :
    (∀ offset, (lexFrom newlines offset none text).map kind = kindsFrom newlines [] text) ∧
      ∀ offset start letters, letters ≠ [] →
        (lexFrom newlines offset (some ⟨start, letters⟩) text).map kind =
          kindsFrom newlines letters text := by
  induction text with
  | nil =>
      refine ⟨fun _ => rfl, fun offset start letters hletters => ?_⟩
      simp [lexFrom, flush, kindsFrom, pendingKind, hletters]
  | cons c rest ih =>
      obtain ⟨ihNone, ihSome⟩ := ih
      constructor
      · intro offset
        rw [lexFrom, kindsFrom]
        cases newlines.role c with
        | letter => exact ihSome (offset + 1) offset [c] (by simp)
        | skipped => exact ihNone (offset + 1)
        | separator => exact ihNone (offset + 1)
        | left => exact congrArg (TokenKind.left :: ·) (ihNone (offset + 1))
        | right => exact congrArg (TokenKind.right :: ·) (ihNone (offset + 1))
      · intro offset start letters hletters
        rw [lexFrom, kindsFrom]
        cases newlines.role c with
        | letter => exact ihSome (offset + 1) start (c :: letters) (by simp)
        | skipped => exact ihSome (offset + 1) start letters hletters
        | separator => simp [flush, pendingKind, hletters, ihNone]
        | left => simp [flush, pendingKind, hletters, ihNone, Token.left]
        | right => simp [flush, pendingKind, hletters, ihNone, Token.right]

theorem map_kind_lex (newlines : Newlines) (text : Text) :
    (lex newlines text).map kind = kindsFrom newlines [] text :=
  (map_kind_lexFrom newlines text).1 0

/-! ### Which characters matter -/

theorem kindsFrom_spaces {spaces : Text} (h : ∀ c ∈ spaces, c = ' ') (text : Text) :
    kindsFrom newlines [] (spaces ++ text) = kindsFrom newlines [] text := by
  induction spaces with
  | nil => rfl
  | cons c rest ih =>
      obtain ⟨rfl, hrest⟩ := List.forall_mem_cons.1 h
      rw [← ih hrest]
      cases newlines <;> rfl

def bracketKind? (c : Char) : Option TokenKind :=
  if c = '(' then some .left else if c = ')' then some .right else none

/-- The brackets of a text are tokens, whatever stands between them. -/
theorem brackets_kindsFrom (newlines : Newlines) (letters text : Text) :
    brackets (kindsFrom newlines letters text) = text.filterMap bracketKind? := by
  induction text generalizing letters with
  | nil => exact brackets_pendingKind letters
  | cons c rest ih =>
      rw [kindsFrom, List.filterMap_cons]
      cases hrole : newlines.role c with
      | letter =>
          have hc := Newlines.role_eq_letter_iff.1 hrole
          simp [bracketKind?, hc.2.2.1, hc.2.2.2, ih]
      | skipped =>
          obtain rfl := Newlines.eq_newline_of_role_eq_skipped hrole
          exact ih letters
      | separator =>
          have hleft := mt Newlines.role_eq_left_iff.2 (by simp [hrole] : newlines.role c ≠ .left)
          have hright :=
            mt Newlines.role_eq_right_iff.2 (by simp [hrole] : newlines.role c ≠ .right)
          simp [bracketKind?, hleft, hright, brackets_append, brackets_pendingKind, ih]
      | left =>
          obtain rfl := Newlines.role_eq_left_iff.1 hrole
          rw [brackets_append, brackets_pendingKind]
          exact congrArg (TokenKind.left :: ·) (ih [])
      | right =>
          obtain rfl := Newlines.role_eq_right_iff.1 hrole
          rw [brackets_append, brackets_pendingKind]
          exact congrArg (TokenKind.right :: ·) (ih [])

theorem literals_kindsFrom_eq_zero_iff :
    literals (kindsFrom newlines letters text) = 0 ↔
      letters = [] ∧ ∀ c ∈ text, newlines.role c ≠ .letter := by
  induction text generalizing letters with
  | nil => simp [kindsFrom, literals_pendingKind_eq_zero_iff]
  | cons c rest ih =>
      rw [kindsFrom, List.forall_mem_cons]
      cases hrole : newlines.role c with
      | letter => simp [ih]
      | skipped => simp [ih]
      | separator => simp [literals_append, literals_pendingKind_eq_zero_iff, ih]
      | left =>
          have hcons : ∀ kinds, literals (.left :: kinds) = literals kinds := fun _ => rfl
          simp [literals_append, literals_pendingKind_eq_zero_iff, hcons, ih]
      | right =>
          have hcons : ∀ kinds, literals (.right :: kinds) = literals kinds := fun _ => rfl
          simp [literals_append, literals_pendingKind_eq_zero_iff, hcons, ih]

end Token

end BracketCalc
