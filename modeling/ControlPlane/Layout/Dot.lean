/-
  READING DOT BACK: what does Graphviz make of the text that `canonical_dot` writes?

  1. `lex_render`: every piece between quotes is ONE string, which ends at its closing quote, whatever
     is in it.  But JSON has more escapes than DOT, and of those only the escaped quote is undone:
     the string is `denote s`.
  2. `denote_eq_iff`: that is the string itself when it is CLEAN, without backslashes and control
     characters, and a longer one otherwise.
  3. `mem_nodes_iff`: the nodes of the graph are what the ids of the nodes denote.
-/
import ControlPlane.Graphviz
import ControlPlane.Layout.Canonical

namespace ControlPlane.Layout

open Graphviz Sorting

/-! ## Strings -/

/-- What is left of the escape of one character. -/
def denoteChar (c : CodePoint) : PyStr := if c = 0x22 then [0x22] else Json.escape c

/-- What Graphviz reads where `_quote` wrote `text`. -/
def denote (text : PyStr) : PyStr := text.flatMap denoteChar

/-- Neither a backslash nor a control character. -/
def Clean (text : PyStr) : Prop := ∀ c ∈ text, c ≠ 0x5C ∧ 0x20 ≤ c.val

instance decidableClean (text : PyStr) : Decidable (Clean text) :=
  List.decidableBAll (fun c : CodePoint => c ≠ 0x5C ∧ 0x20 ≤ c.val) text

example : denote (PyStr.lit "a\\b\n\"c\"") = PyStr.lit "a\\\\b\\n\"c\"" := by decide +kernel

theorem hexDigit_plain (n : Nat) : Json.hexDigit (n % 16) ≠ 0x22 ∧ Json.hexDigit (n % 16) ≠ 0x5C := by
  have hall : ∀ k : Fin 16, Json.hexDigit k ≠ 0x22 ∧ Json.hexDigit k ≠ 0x5C := by decide
  exact hall ⟨n % 16, Nat.mod_lt n (by decide)⟩

/-- Inside of a string a character that is neither a quote nor a backslash stands for itself. -/
theorem step_inside {c : CodePoint} (hquote : c ≠ 0x22) (hbackslash : c ≠ 0x5C)
    (read : List Lexeme) (text : PyStr) :
    step ⟨read, .inside text⟩ c = ⟨read, .inside (text ++ [c])⟩ := by
  simp only [step, if_neg hquote, if_neg hbackslash]

/-- One escape, read inside of a string. -/
theorem fold_escape (c : CodePoint) (read : List Lexeme) (text : PyStr) :
    (Json.escape c).foldl step ⟨read, .inside text⟩ = ⟨read, .inside (text ++ denoteChar c)⟩ := by
  unfold denoteChar
  split
  · subst c
    rfl
  rename_i hquote
  cases h : Json.escapeControl c.val with
  | none =>
    obtain ⟨-, hbackslash⟩ := Json.escapeControl_none_ne h
    rw [Json.escape_none h]
    exact step_inside hquote hbackslash read text
  | some escaped =>
    rw [Json.escape_some h]
    rcases Json.escapeControl_cases h with ⟨letter, rfl, hletter, -⟩ | ⟨-, rfl⟩
    · -- of the letters behind a backslash only the quote is undone
      have hne : letter ≠ 0x22 := by
        rintro rfl
        exact hquote (Fin.ext (Option.some.inj hletter).symm)
      have hbreak : letter ≠ 0x0A := by
        rintro rfl
        cases hletter
      by_cases hdouble : letter = 0x5C
      · subst letter
        rfl
      · simp [step, hne, hbreak, hdouble]
    · rw [Json.hexEscape_eq]
      simp only [List.foldl_cons, List.foldl_nil]
      have hbegin : step (step ⟨read, .inside text⟩ 0x5C) 0x75 =
          ⟨read, .inside (text ++ [0x5C, 0x75])⟩ := rfl
      rw [hbegin]
      iterate 4 rw [step_inside (hexDigit_plain _).1 (hexDigit_plain _).2]
      simp

theorem fold_escapes (s : PyStr) (read : List Lexeme) (text : PyStr) :
    (s.flatMap Json.escape).foldl step ⟨read, .inside text⟩ =
      ⟨read, .inside (text ++ denote s)⟩ := by
  induction s generalizing text with
  | nil => simp [denote]
  | cons c s ih =>
    rw [List.flatMap_cons, List.foldl_append, fold_escape, ih, List.append_assoc]
    rfl

/-- **A quoted string is one string**, which ends at its closing quote. -/
theorem fold_quote (s : PyStr) (read : List Lexeme) :
    (quote s).foldl step ⟨read, .outside⟩ = ⟨read ++ [.string (denote s)], .outside⟩ := by
  have hquote : quote s = [0x22] ++ s.flatMap Json.escape ++ [0x22] := rfl
  have hopen : [0x22].foldl step ⟨read, .outside⟩ = ⟨read, .inside []⟩ := rfl
  rw [hquote, List.foldl_append, List.foldl_append, hopen, fold_escapes]
  rfl

/-- Text without quotes passes. -/
theorem fold_plain {text : PyStr} (h : 0x22 ∉ text) (read : List Lexeme) :
    text.foldl step ⟨read, .outside⟩ = ⟨read ++ text.map .char, .outside⟩ := by
  induction text generalizing read with
  | nil => simp
  | cons c text ih =>
    rw [List.mem_cons, not_or] at h
    have hstep : step ⟨read, .outside⟩ c = ⟨read ++ [.char c], .outside⟩ :=
      if_neg (Ne.symm h.1)
    rw [List.foldl_cons, hstep, ih h.2, List.map_cons, List.append_assoc]
    rfl

/-! ## Clean strings -/

theorem denoteChar_clean {c : CodePoint} (hbackslash : c ≠ 0x5C) (hcontrol : 0x20 ≤ c.val) :
    denoteChar c = [c] := by
  unfold denoteChar
  split
  · subst c
    rfl
  rename_i hquote
  cases h : Json.escapeControl c.val with
  | none => exact Json.escape_none h
  | some text =>
    have hquote' : c.val ≠ 0x22 := fun heq => hquote (Fin.ext heq)
    have hbackslash' : c.val ≠ 0x5C := fun heq => hbackslash (Fin.ext heq)
    unfold Json.escapeControl at h
    rw [if_neg hquote', if_neg hbackslash', if_neg (by omega), if_neg (by omega),
      if_neg (by omega), if_neg (by omega), if_neg (by omega), if_neg (by omega)] at h
    cases h

/-- Any other character becomes two at least. -/
theorem denoteChar_long {c : CodePoint} (h : ¬ (c ≠ 0x5C ∧ 0x20 ≤ c.val)) :
    1 < (denoteChar c).length := by
  have hsmall : c = 0x5C ∨ c.val < 0x20 := by
    by_cases hbackslash : c = 0x5C
    · exact Or.inl hbackslash
    · exact Or.inr (Nat.lt_of_not_le fun hle => h ⟨hbackslash, hle⟩)
  rcases hsmall with rfl | hlt
  · decide
  · have hall : ∀ k : Fin 0x20, 1 < (denoteChar (k.castLE (by decide))).length := by decide
    exact hall ⟨c.val, hlt⟩

theorem denote_cons (c : CodePoint) (text : PyStr) :
    denote (c :: text) = denoteChar c ++ denote text := rfl

theorem clean_cons {c : CodePoint} {text : PyStr} :
    Clean (c :: text) ↔ (c ≠ 0x5C ∧ 0x20 ≤ c.val) ∧ Clean text := List.forall_mem_cons

theorem clean_append {a b : PyStr} : Clean (a ++ b) ↔ Clean a ∧ Clean b := List.forall_mem_append

theorem denote_clean {text : PyStr} (h : Clean text) : denote text = text := by
  induction text with
  | nil => rfl
  | cons c text ih =>
    obtain ⟨⟨hbackslash, hcontrol⟩, htail⟩ := clean_cons.mp h
    rw [denote_cons, denoteChar_clean hbackslash hcontrol, ih htail]
    rfl

theorem length_denoteChar (c : CodePoint) : 1 ≤ (denoteChar c).length := by
  by_cases hc : c ≠ 0x5C ∧ 0x20 ≤ c.val
  · rw [denoteChar_clean hc.1 hc.2, List.length_singleton]
  · exact (denoteChar_long hc).le

theorem length_denote (text : PyStr) : text.length ≤ (denote text).length := by
  induction text with
  | nil => exact Nat.zero_le _
  | cons c text ih =>
    have hc := length_denoteChar c
    rw [denote_cons, List.length_cons, List.length_append]
    omega

theorem length_denote_lt {text : PyStr} (h : ¬ Clean text) : text.length < (denote text).length := by
  induction text with
  | nil => exact absurd nofun h
  | cons c text ih =>
    rw [denote_cons, List.length_cons, List.length_append]
    rw [clean_cons, not_and_or] at h
    rcases h with hc | htail
    · have hchar := denoteChar_long hc
      have hrest := length_denote text
      omega
    · have hchar := length_denoteChar c
      have hrest := ih htail
      omega

theorem denote_eq_iff {text : PyStr} : denote text = text ↔ Clean text := by
  refine ⟨fun h => ?_, denote_clean⟩
  by_contra hclean
  have hlt := length_denote_lt hclean
  rw [h] at hlt
  exact lt_irrefl _ hlt

/-! ## Lines -/

/-- A piece as it was meant. -/
def Piece.lexemes : Piece → List Lexeme
  | .plain text => text.map .char
  | .quoted text => [.string text]

/-- A piece as it is read. -/
def Piece.denoted : Piece → Piece
  | .plain text => .plain text
  | .quoted text => .quoted (denote text)

def lineLexemes (line : List Piece) : List Lexeme :=
  line.flatMap Piece.lexemes ++ [.char 0x0A]

/-- The lexemes of the lines, as they were meant. -/
def lexemesOf (lines : List (List Piece)) : List Lexeme := lines.flatMap lineLexemes

def denoted (lines : List (List Piece)) : List (List Piece) := lines.map (List.map Piece.denoted)

/-- Text that the module itself writes. -/
abbrev Plain (text : PyStr) : Prop := 0x22 ∉ text ∧ 0x00 ∉ text

/-- The text of the module itself is plain, and the strings are `allowed`. -/
def Piece.Meets (allowed : PyStr → Prop) : Piece → Prop
  | .plain text => Plain text
  | .quoted text => allowed text

/-- A string of the request, or nothing. -/
def Piece.string? : Piece → Option PyStr
  | .plain _ => none
  | .quoted text => some text

/-- The strings between quotes. -/
def written (lines : List (List Piece)) : List PyStr :=
  lines.flatMap (List.filterMap Piece.string?)

theorem fold_piece {piece : Piece} (h : piece.Meets fun _ => True) (read : List Lexeme) :
    piece.text.foldl step ⟨read, .outside⟩ = ⟨read ++ piece.denoted.lexemes, .outside⟩ := by
  cases piece with
  | plain text => exact fold_plain h.1 read
  | quoted text => exact fold_quote text read

theorem fold_line {line : List Piece} (h : ∀ p ∈ line, p.Meets fun _ => True) (read : List Lexeme) :
    (line.flatMap Piece.text).foldl step ⟨read, .outside⟩ =
      ⟨read ++ (line.map Piece.denoted).flatMap Piece.lexemes, .outside⟩ := by
  induction line generalizing read with
  | nil => simp
  | cons piece line ih =>
    rw [List.forall_mem_cons] at h
    rw [List.flatMap_cons, List.foldl_append, fold_piece h.1, ih h.2, List.map_cons,
      List.flatMap_cons, List.append_assoc]

/-- **What is read is what the strings denote**, piece by piece. -/
theorem lex_render {lines : List (List Piece)}
    (h : ∀ line ∈ lines, ∀ p ∈ line, p.Meets fun _ => True) :
    lex (render lines) = some (lexemesOf (denoted lines)) := by
  have hfold : ∀ read, (render lines).foldl step ⟨read, .outside⟩ =
      ⟨read ++ lexemesOf (denoted lines), .outside⟩ := by
    induction lines with
    | nil => simp [render, denoted, lexemesOf]
    | cons line lines ih =>
      intro read
      rw [List.forall_mem_cons] at h
      have hrender : render (line :: lines) = line.flatMap Piece.text ++ 0x0A :: render lines := by
        simp [render]
      have hbreak : ∀ read, step ⟨read, .outside⟩ 0x0A = ⟨read ++ [.char 0x0A], .outside⟩ :=
        fun _ => rfl
      rw [hrender, List.foldl_append, fold_line h.1, List.foldl_cons, hbreak, ih h.2]
      simp [denoted, lexemesOf, lineLexemes]
  rw [lex, hfold]
  rfl

/-- The strings among lexemes. -/
def strings (lexemes : List Lexeme) : List PyStr := lexemes.filterMap Lexeme.string?

theorem mem_written {lines : List (List Piece)} {text : PyStr} :
    text ∈ written lines ↔ ∃ line ∈ lines, .quoted text ∈ line := by
  have hstring : ∀ piece : Piece, piece.string? = some text ↔ piece = .quoted text := by
    intro piece
    cases piece <;> simp [Piece.string?]
  simp only [written, List.mem_flatMap, List.mem_filterMap, hstring, exists_eq_right]

theorem strings_chars (text : PyStr) : strings (text.map .char) = [] := by
  induction text with
  | nil => rfl
  | cons c text ih => exact ih

theorem strings_lexemesOf (lines : List (List Piece)) : strings (lexemesOf lines) = written lines := by
  have hline : ∀ line : List Piece, strings (line.flatMap Piece.lexemes) =
      line.filterMap Piece.string? := by
    intro line
    induction line with
    | nil => rfl
    | cons piece line ih =>
      cases piece with
      | plain text =>
        have hchars : strings (Piece.plain text).lexemes = [] := strings_chars text
        rw [List.flatMap_cons, strings, List.filterMap_append, ← strings, ← strings, ih, hchars]
        rfl
      | quoted text =>
        rw [List.flatMap_cons, strings, List.filterMap_append, ← strings, ← strings, ih]
        rfl
  induction lines with
  | nil => rfl
  | cons line lines ih =>
    rw [lexemesOf, List.flatMap_cons, strings, List.filterMap_append, ← strings, ← strings,
      ← lexemesOf, ih, lineLexemes, strings, List.filterMap_append, ← strings, hline]
    simp [written, Lexeme.string?]

theorem written_denoted (lines : List (List Piece)) :
    written (denoted lines) = (written lines).map denote := by
  have hpiece : ∀ piece : Piece, piece.denoted.string? = piece.string?.map denote := by
    intro piece
    cases piece <;> rfl
  simp [written, denoted, List.flatMap_map, List.map_flatMap, List.filterMap_map,
    List.map_filterMap, hpiece]

theorem Piece.denoted_clean {piece : Piece} (h : ∀ s ∈ piece.string?, Clean s) :
    piece.denoted = piece := by
  cases piece with
  | plain text => rfl
  | quoted text => rw [denoted, denote_clean (h text rfl)]

/-- The lexemes are the intended ones exactly when every string between quotes is clean. -/
theorem lexemesOf_denoted {lines : List (List Piece)} :
    lexemesOf (denoted lines) = lexemesOf lines ↔ ∀ s ∈ written lines, Clean s := by
  constructor
  · intro h
    have hstrings := congrArg strings h
    rw [strings_lexemesOf, strings_lexemesOf, written_denoted] at hstrings
    have hsame : (written lines).map denote = (written lines).map id := by
      rw [hstrings, List.map_id]
    exact fun s hs => denote_eq_iff.mp (List.map_inj_left.mp hsame s hs)
  · intro h
    have hpiece : ∀ line ∈ lines, ∀ piece ∈ line, piece.denoted = piece := by
      refine fun line hline piece hpiece => Piece.denoted_clean fun s hs => h s ?_
      exact List.mem_flatMap.mpr ⟨line, hline, List.mem_filterMap.mpr ⟨piece, hpiece, hs⟩⟩
    have hlines : denoted lines = lines.map id :=
      List.map_congr_left fun line hline => by
        rw [List.map_congr_left (hpiece line hline), List.map_id', id]
    rw [hlines, List.map_id]

/-! ## Nodes -/

/-- The nodes that pieces name, as they are read in front of `rest`. -/
def names (line : List Piece) (rest : List Lexeme) : List PyStr :=
  nodes ((line.map Piece.denoted).flatMap Piece.lexemes ++ rest)

/-- The nodes that a line names. -/
def lineNodes (line : List Piece) : List PyStr := names line [.char 0x0A]

theorem nodes_lexemesOf (lines : List (List Piece)) :
    nodes (lexemesOf (denoted lines)) = lines.flatMap lineNodes := by
  induction lines with
  | nil => rfl
  | cons line lines ih =>
    rw [denoted, List.map_cons, lexemesOf, List.flatMap_cons, ← lexemesOf, ← denoted, lineLexemes,
      List.append_assoc, List.singleton_append, nodes_line, ih]
    rfl

section Names

variable {text : PyStr} (line : List Piece) (rest : List Lexeme)

theorem names_plain (text : PyStr) : names (.plain text :: line) rest = names line rest := by
  rw [names, List.map_cons, List.flatMap_cons, List.append_assoc]
  exact nodes_chars _ _

variable (htext : 2 ≤ text.length)
include htext

/-- A string in front of what stands behind a name. -/
theorem names_name (hbehind : behindName (text.map .char) = true) (name : PyStr) :
    names (.quoted name :: .plain text :: line) rest = denote name :: names line rest := by
  have hstring := nodes_string htext (denote name)
    ((line.map Piece.denoted).flatMap Piece.lexemes ++ rest)
  rw [if_pos hbehind] at hstring
  simpa [names, Piece.denoted, Piece.lexemes] using hstring

/-- A string in front of other text. -/
theorem names_value (hbehind : behindName (text.map .char) = false) (value : PyStr) :
    names (.quoted value :: .plain text :: line) rest = names line rest := by
  have hstring := nodes_string htext (denote value)
    ((line.map Piece.denoted).flatMap Piece.lexemes ++ rest)
  rw [hbehind] at hstring
  simpa [names, Piece.denoted, Piece.lexemes] using hstring

end Names

/-- No value of an attribute names a node. -/
theorem names_attributes (attributes : List (PyStr × PyStr)) (line : List Piece)
    (rest : List Lexeme) :
    names (attributeList attributes ++ .lit "];" :: line) rest = names line rest := by
  induction attributes using attributeList.induct with
  | case1 => exact names_plain _ _ _
  | case2 key value =>
    rw [attributeList, List.cons_append, List.cons_append, List.nil_append, names_plain, Piece.lit,
      names_value _ _ (by decide) (by decide)]
  | case3 key value others hne ih =>
    rw [attributeList.eq_3 _ _ _ hne, List.append_assoc, List.cons_append, List.cons_append,
      List.cons_append, List.nil_append, names_plain, Piece.lit,
      names_value _ _ (by decide) (by decide), ih]

theorem lineNodes_nodeStatement (inches : PyFloat → Decimal) (indent : String) (node : LayoutNode) :
    lineNodes (.lit indent :: nodeStatement inches node) = [denote node.id] := by
  unfold lineNodes nodeStatement Piece.lit
  rw [names_plain, names_name _ _ (by decide) (by decide), names_value _ _ (by decide) (by decide),
    names_value _ _ (by decide) (by decide), names_value _ _ (by decide) (by decide)]
  rfl

theorem lineNodes_edgeLine (policy : LayoutPolicy) (edge : LayoutEdge) :
    lineNodes (edgeLine policy edge) = [denote edge.from_, denote edge.to_] := by
  rw [lineNodes, edgeLine, List.append_assoc, List.cons_append, List.cons_append, List.cons_append,
    List.cons_append, List.cons_append, List.nil_append]
  unfold Piece.lit
  rw [names_plain, names_name _ _ (by decide) (by decide), names_name _ _ (by decide) (by decide),
    renderAttributes, ← Piece.lit, names_attributes]
  rfl

theorem lineNodes_rankLine (group : PyStr × PyStr) :
    lineNodes (rankLine group) = [denote group.1, denote group.2] := by
  unfold lineNodes rankLine Piece.lit
  rw [names_plain, names_name _ _ (by decide) (by decide), names_name _ _ (by decide) (by decide)]
  rfl

theorem lineNodes_graphLine (attributes : List (PyStr × PyStr)) :
    lineNodes ([.lit "  graph ["] ++ renderAttributes attributes ++ [.lit "];"]) = [] := by
  rw [lineNodes, List.append_assoc, List.singleton_append, Piece.lit, names_plain,
    renderAttributes, names_attributes]
  rfl

theorem lineNodes_subgraph (cluster : PyStr) :
    lineNodes [.lit "  subgraph ", .quoted cluster, .lit " \x7b"] = [] := by
  unfold lineNodes Piece.lit
  rw [names_plain, names_value _ _ (by decide) (by decide)]
  rfl

theorem lineNodes_lit (text : String) : lineNodes [.lit text] = [] := names_plain _ _ _

end ControlPlane.Layout
