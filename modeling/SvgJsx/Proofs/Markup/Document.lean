import SvgJsx.Markup.AttributeName

/-! Well-formed markup as a tree, and the text that it is printed as. Every part carries the proof
that it is spelled as its place demands, so what is not well-formed cannot be built. -/

namespace SvgJsx.Markup
open Text

/-- Text whose braces pair up. Those in a string do not count; a string goes from a quote to the
next one of its kind. -/
inductive Balanced : Text → Prop where
  | nil : Balanced []
  | plain {c : Char} {t : Text} (hq : isStringQuote c = false) (ho : c ≠ '{') (hc : c ≠ '}')
      (ht : Balanced t) : Balanced (c :: t)
  | string {q : Char} {s t : Text} (hq : isStringQuote q = true) (hs : q ∉ s)
      (ht : Balanced t) : Balanced (q :: (s ++ q :: t))
  | braces {s t : Text} (hs : Balanced s) (ht : Balanced t) : Balanced ('{' :: (s ++ '}' :: t))

structure Blanks where
  text : Text
  blank : ∀ c ∈ text, isAsciiBlank c = true

structure AttributeName where
  text : Text
  ne_nil : text ≠ []
  plain : ∀ c ∈ text, endsName c = false

structure TagName where
  first : Char
  rest : Text
  letter : first.isAlpha = true
  plain : ∀ c ∈ rest, isAsciiBlank c = false ∧ c ≠ '/' ∧ c ≠ '>'

inductive Value where
  | quoted (quote : Char) (body : Text) (hq : quote = '"' ∨ quote = '\'') (hb : quote ∉ body)
  | unquoted (first : Char) (rest : Text) (hf : first ≠ '"' ∧ first ≠ '\'' ∧ first ≠ '{')
      (plain : ∀ c ∈ first :: rest, isAsciiBlank c = false ∧ c ≠ '>')
  | braced (body : Text) (hb : Balanced body)

namespace Value

def text : Value → Text
  | quoted q body _ _ => q :: (body ++ [q])
  | unquoted first rest _ _ => first :: rest
  | braced body _ => '{' :: (body ++ ['}'])

end Value

structure Assignment where
  before : Blanks
  after : Blanks
  value : Value

def Assignment.text (x : Assignment) : Text := x.before.text ++ '=' :: (x.after.text ++ x.value.text)

structure Attribute where
  space : Blanks
  spaced : space.text ≠ []
  name : AttributeName
  assigned? : Option Assignment

namespace Attribute

def tail (a : Attribute) : Text := (a.assigned?.map Assignment.text).getD []

def text (a : Attribute) : Text := a.space.text ++ (a.name.text ++ a.tail)

end Attribute

structure StartTag where
  name : TagName
  attributes : List Attribute
  space : Blanks
  selfClosing : Bool

def StartTag.close (tag : StartTag) : Text :=
  tag.space.text ++ ((if tag.selfClosing then ['/'] else []) ++ ['>'])

inductive Node where
  | text (t : Text) (h : '<' ∉ t)
  | comment (t : Text) (h : ¬ "-->".toList <:+: t)
  | characterData (t : Text) (h : ¬ "]]>".toList <:+: t)
  /-- A declaration that opens neither a comment nor character data. -/
  | declaration (t : Text) (h : '>' ∉ t) (hc : ¬ "--".toList <+: t) (hd : ¬ "[CDATA[".toList <+: t)
  | instruction (t : Text) (h : '>' ∉ t)
  | closing (t : Text) (h : '>' ∉ t)
  | start (tag : StartTag)

inductive Token where
  | other (t : Text)
  | attr (a : Attribute)

def Token.text : Token → Text
  | other t => t
  | attr a => a.text

def printTokens (ts : List Token) : Text := ts.flatMap Token.text

def Node.tokens : Node → List Token
  | text t _ => [.other t]
  | comment t _ => [.other ("<!--".toList ++ (t ++ "-->".toList))]
  | characterData t _ => [.other ("<![CDATA[".toList ++ (t ++ "]]>".toList))]
  | declaration t _ _ _ => [.other ("<!".toList ++ (t ++ ['>']))]
  | instruction t _ => [.other ("<?".toList ++ (t ++ ['>']))]
  | closing t _ => [.other ("</".toList ++ (t ++ ['>']))]
  | start tag =>
    .other ('<' :: tag.name.first :: tag.name.rest) ::
      (tag.attributes.map .attr ++ [.other tag.close])

/-- A document is a list of nodes. That tags come in pairs is not asked for. -/
abbrev Document := List Node

namespace Document

def tokens (d : Document) : List Token := d.flatMap Node.tokens

def print (d : Document) : Text := printTokens d.tokens

end Document

/-- The attributes among tokens that are printed behind a text, in order, each with all that is
printed before its name. -/
def placedFrom : Text → List Token → List (Text × Attribute)
  | _, [] => []
  | before, .other t :: ts => placedFrom (before ++ t) ts
  | before, .attr a :: ts => (before ++ a.space.text, a) :: placedFrom (before ++ a.text) ts

def Document.attributes (d : Document) : List (Text × Attribute) := placedFrom [] d.tokens

@[simp] theorem printTokens_nil : printTokens [] = [] := rfl

@[simp] theorem printTokens_cons (k : Token) (ts : List Token) :
    printTokens (k :: ts) = k.text ++ printTokens ts := rfl

@[simp] theorem printTokens_append (ts us : List Token) :
    printTokens (ts ++ us) = printTokens ts ++ printTokens us := List.flatMap_append

@[simp] theorem placedFrom_nil (before : Text) : placedFrom before [] = [] := rfl

@[simp] theorem placedFrom_other (before t : Text) (ts : List Token) :
    placedFrom before (.other t :: ts) = placedFrom (before ++ t) ts := rfl

@[simp] theorem placedFrom_attr (before : Text) (a : Attribute) (ts : List Token) :
    placedFrom before (.attr a :: ts) =
      (before ++ a.space.text, a) :: placedFrom (before ++ a.text) ts := rfl

end SvgJsx.Markup
