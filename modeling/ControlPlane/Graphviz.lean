/-
  HOW GRAPHVIZ READS DOT: quoted strings, and the nodes that the statements name.

  Between quotes a backslash with a quote is a quote, a doubled backslash stays as it is, a backslash
  at the end of a line disappears with it, and everything else is meant literally.  The lexer is a
  machine that reads one character at a time; outside of strings it passes characters on.

  Of the grammar no more is needed than where a quoted string NAMES a node: in front of an attribute
  list, in front of an arrow, or as a statement of its own.  Values of attributes stand in front of a
  comma or a bracket, and names of subgraphs in front of a brace.
-/
import ControlPlane.PyStr

namespace ControlPlane.Graphviz

inductive Lexeme where
  | char (c : CodePoint)
  | string (text : PyStr)
  deriving DecidableEq

def Lexeme.string? : Lexeme → Option PyStr
  | .char _ => none
  | .string text => some text

/-! ## The lexer -/

inductive Mode where
  | outside
  | inside (text : PyStr)
  | backslash (text : PyStr)

structure State where
  read : List Lexeme
  mode : Mode

def step (s : State) (c : CodePoint) : State :=
  match s.mode with
  | .outside => if c = 0x22 then ⟨s.read, .inside []⟩ else ⟨s.read ++ [.char c], .outside⟩
  | .inside text =>
      if c = 0x22 then ⟨s.read ++ [.string text], .outside⟩
      else if c = 0x5C then ⟨s.read, .backslash text⟩
      else ⟨s.read, .inside (text ++ [c])⟩
  | .backslash text =>
      if c = 0x22 then ⟨s.read, .inside (text ++ [0x22])⟩
      else if c = 0x5C then ⟨s.read, .inside (text ++ [0x5C, 0x5C])⟩
      else if c = 0x0A then ⟨s.read, .inside text⟩
      else ⟨s.read, .inside (text ++ [0x5C, c])⟩

/-- The lexemes of a text; `none` when a string is not closed. -/
def lex (text : PyStr) : Option (List Lexeme) :=
  match text.foldl step ⟨[], .outside⟩ with
  | ⟨read, .outside⟩ => some read
  | _ => none

example : lex (PyStr.lit "a \"b\\\"c\\\\d\\n\"") = some [.char 0x61, .char 0x20,
    .string (PyStr.lit "b\"c\\\\d\\n")] := by decide +kernel

/-! ## The nodes -/

/-- What stands behind the name of a node: an attribute list, an arrow, or the end of a statement. -/
def behindName (rest : List Lexeme) : Bool :=
  rest.take 2 == [.char 0x20, .char 0x5B] || rest.take 2 == [.char 0x20, .char 0x2D] ||
    rest.take 1 == [.char 0x3B]

/-- The strings that name nodes. -/
def nodes : List Lexeme → List PyStr
  | [] => []
  | .char _ :: rest => nodes rest
  | .string text :: rest => if behindName rest then text :: nodes rest else nodes rest

/-- Characters name no node. -/
theorem nodes_chars (text : PyStr) (rest : List Lexeme) :
    nodes (text.map .char ++ rest) = nodes rest := by
  induction text with
  | nil => rfl
  | cons c text ih => exact ih

/-- Two characters tell whether a string names a node. -/
theorem nodes_string {text : PyStr} (htext : 2 ≤ text.length) (name : PyStr)
    (rest : List Lexeme) :
    nodes (.string name :: (text.map .char ++ rest)) =
      if behindName (text.map .char) then name :: nodes rest else nodes rest := by
  have hrest : nodes (text.map .char ++ rest) = nodes rest := nodes_chars _ _
  have hbehind : behindName (text.map .char ++ rest) = behindName (text.map .char) := by
    match text, htext with
    | a :: b :: text, _ => rfl
  rw [nodes, hrest, hbehind]

/-- A line break separates what is in front of it from what is behind it. -/
theorem nodes_line (line rest : List Lexeme) :
    nodes (line ++ .char 0x0A :: rest) = nodes (line ++ [.char 0x0A]) ++ nodes rest := by
  induction line with
  | nil => rfl
  | cons first line ih =>
    cases first with
    | char c => exact ih
    | string name =>
      have hbehind : behindName (line ++ .char 0x0A :: rest) = behindName (line ++ [.char 0x0A]) := by
        unfold behindName
        match line with
        | [] => cases rest <;> simp
        | [a] => simp
        | a :: b :: line => simp
      rw [List.cons_append, List.cons_append, nodes, nodes, ih, hbehind]
      split <;> rfl

end ControlPlane.Graphviz
