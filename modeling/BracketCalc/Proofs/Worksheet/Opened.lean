import BracketCalc.Proofs.Expr.Mishap
import BracketCalc.Proofs.Source.Joined
import BracketCalc.Proofs.Worksheet.Files
/-!
# Opening a file

A worksheet reads the cleaned text of its file.  For a plain text this comes to
the same tree or to an error of the same kind as reading the text itself, unless
literals go on behind newlines and cleaning joins two of them: then the tree is
another one.
-/

namespace BracketCalc

open Token

namespace Expr

theorem kindsOf_eq_flatMap (items : List Tree) : kindsOf items = items.flatMap kinds := by
  induction items with
  | nil => rfl
  | cons e rest ih => rw [kindsOf, ih, List.flatMap_cons]

theorem kinds_bare (e : Tree) : kinds e.bare = kinds e := by
  induction e using Expr.induction with
  | literal text span => rfl
  | group items span depth ih =>
      have hitems : kindsOf (items.map bare) = kindsOf items := by
        rw [kindsOf_eq_flatMap, kindsOf_eq_flatMap, List.flatMap_map]
        exact List.flatMap_congr ih
      rw [bare, bareItems_eq_map, kinds, kinds, hitems]
  | foreign value => exact value.elim

end Expr

namespace Tree

variable {newlines : Newlines} {a b : Text} {t u : Tree} {tokens : List Token}

theorem Reads.literals_eq (h : Reads tokens t) :
    literals (tokens.map kind) = literals t.kinds := by
  cases h with
  | literal => rfl
  | enclosed hsegment => rw [hsegment.map_kind, Expr.kindsOf_singleton]
  | implicit _ hsegment _ =>
      have hbrackets : ∀ kinds, literals (.left :: (kinds ++ [.right])) = literals kinds := by
        intro kinds
        simp [literals, TokenKind.isLiteral]
      rw [hsegment.map_kind, Expr.kinds, hbrackets]

/-- Texts whose tokens have the same kinds are read as the same. -/
theorem same_of_map_kind (h : (lex newlines a).map kind = (lex newlines b).map kind)
    (ha : parse newlines a = .ok t) (hb : parse newlines b = .ok u) : t.same u = true := by
  have hparse := parse_of_map_kind h
  rw [ha, hb] at hparse
  rw [Expr.same_iff, ← Expr.bare_placed (f := fun _ => 0) t, Except.ok.inj hparse, Expr.bare_placed]

end Tree

namespace Source

variable {newlines : Newlines} {text : Text} {t u : Tree}

/-- Cleaning a plain text keeps the kind of its error, if it has one. -/
theorem error?_parse_clean (h : Plain text) (newlines : Newlines) :
    Tree.error? (Tree.parse newlines (clean text)) = Tree.error? (Tree.parse newlines text) := by
  rw [Tree.error?_parse, Tree.error?_parse, map_kind_lex, map_kind_lex]
  exact Tree.errorOf_congr (brackets_clean h newlines) (literals_clean_eq_zero_iff h newlines)

/-- Cleaning a plain text keeps its tree, unless literals go on behind newlines and two are
joined. -/
theorem same_clean_iff (h : Plain text) (ht : Tree.parse newlines text = .ok t)
    (hu : Tree.parse newlines (clean text) = .ok u) :
    u.same t = true ↔ newlines = .separate ∨ ¬ Joined text := by
  have hsame : kindsFrom newlines [] (clean text) = kindsFrom newlines [] text →
      u.same t = true := by
    rw [← map_kind_lex, ← map_kind_lex]
    exact fun hkinds => Tree.same_of_map_kind hkinds hu ht
  cases newlines with
  | separate => simp [hsame (kindsFrom_separate_clean h [])]
  | merge =>
      have hjoins : Joins [] text ↔ Joined text := by simp [Joins]
      rcases kindsFrom_merge_clean h [] with ⟨hjoined, hfewer⟩ | ⟨hjoined, hkinds⟩
      · rw [hjoins] at hjoined
        rw [← map_kind_lex, ← map_kind_lex, (Tree.reads_of_parse_eq_ok hu).literals_eq,
          (Tree.reads_of_parse_eq_ok ht).literals_eq] at hfewer
        -- the same tree would have as many literals
        have hne : u.same t ≠ true := by
          intro hsame
          rw [← Expr.kinds_bare u, Expr.same_iff.1 hsame, Expr.kinds_bare] at hfewer
          exact Nat.lt_irrefl _ hfewer
        simp [hne, hjoined]
      · rw [hjoins] at hjoined
        simp [hsame hkinds, hjoined]

end Source

namespace Worksheet

variable {σ : Type} {text : Text}

theorem not_mem_return (h : Source.Plain text) : '\r' ∉ text := by
  intro hmem
  rcases h.blanks _ hmem (by decide) with h | h <;> cases h

/-- A worksheet opens with the tree of the text in its file, or is stopped by an error of the same
kind, unless literals go on behind newlines and cleaning joins two of them. -/
theorem opened_as_read (host : Host) {files : Text → Option (List UInt8)} {path text : Text}
    (hholds : Holds files path text) (hplain : Source.Plain text) (interactive : Bool)
    (settings : Settings) (reporter : Reporter) (state : σ) :
    (∀ e, Tree.parse settings.newlines text = .error e →
      ∃ e' : ParseError, e'.unplaced = e.unplaced ∧
        ((start host files path interactive settings : Action σ Worksheet)
          reporter state).ended = .error (e'.stop host)) ∧
    ∀ t, Tree.parse settings.newlines text = .ok t →
      ∃ u : Tree,
        ((start host files path interactive settings : Action σ Worksheet)
          reporter state).ended = .ok ⟨path, settings, [⟨1, Source.clean text, u⟩], []⟩ ∧
        (u.same t = true ↔ settings.newlines = .separate ∨ ¬ Source.Joined text) := by
  have herror := Source.error?_parse_clean hplain settings.newlines
  have hreturn := not_mem_return hplain
  constructor
  · intro e he
    cases hclean : Tree.parse settings.newlines (Source.clean text) with
    | ok u => simp [he, hclean, Tree.error?] at herror
    | error e' =>
        refine ⟨e', by simpa [he, hclean, Tree.error?] using herror, ?_⟩
        rw [start_of_add hholds hreturn (add_idle_of_error hclean)]
        rfl
  · intro t ht
    cases hclean : Tree.parse settings.newlines (Source.clean text) with
    | error e => simp [ht, hclean, Tree.error?] at herror
    | ok u =>
        refine ⟨u, ?_, Source.same_clean_iff hplain ht hclean⟩
        rw [start_of_add hholds hreturn (add_idle_of_ok hclean)]
        rfl

/-- The literals of `1` and `2` on two lines, the first of which ends with a space, are joined. -/
theorem opened_joined :
    Holds (fun _ => some [0x31, 0x20, 0x0A, 0x32]) ['f'] ['1', ' ', '\n', '2'] ∧
      Source.Plain ['1', ' ', '\n', '2'] ∧ Source.Joined ['1', ' ', '\n', '2'] ∧
      Tree.parse .merge ['1', ' ', '\n', '2'] =
        .ok (.group [.literal ['1'] ⟨0, 1⟩, .literal ['2'] ⟨3, 4⟩] ⟨0, 4⟩ 0) ∧
      ∃ u : Tree,
        ((start .plain (fun _ => some [0x31, 0x20, 0x0A, 0x32]) ['f'] false ⟨.merge, false⟩ :
          Action Unit Worksheet) (Reporter.fresh true) ()).ended =
            .ok ⟨['f'], ⟨.merge, false⟩, [⟨1, ['1', '\n', '2'], u⟩], []⟩ ∧
        u.same (.group [.literal ['1'] ⟨0, 1⟩, .literal ['2'] ⟨3, 4⟩] ⟨0, 4⟩ 0) ≠ true := by
  have hholds : Holds (fun _ => some [0x31, 0x20, 0x0A, 0x32]) ['f'] ['1', ' ', '\n', '2'] :=
    ⟨by decide, by decide, _, rfl, rfl⟩
  have hplain : Source.Plain ['1', ' ', '\n', '2'] := ⟨by decide, by simp [Text.isBlank]⟩
  have hletter : ∀ c, c = '1' ∨ c = '2' → Text.IsLetter c := by
    rintro c (rfl | rfl) <;> simp [Text.IsLetter]
  have hjoined : Source.Joined ['1', ' ', '\n', '2'] :=
    .here (hletter '1' (by simp)) (.space (.newline (hletter '2' (by simp))))
  obtain ⟨u, hended, hsame⟩ := (opened_as_read .plain hholds hplain false
    ⟨.merge, false⟩ (Reporter.fresh true) ()).2 _ rfl
  refine ⟨hholds, hplain, hjoined, rfl, u, hended, fun hequal => ?_⟩
  rcases hsame.1 hequal with hseparate | hnone
  · cases hseparate
  · exact hnone hjoined

end Worksheet

end BracketCalc
