import WikiTypeset.Html.Place
import WikiTypeset.Text.CharClass
import WikiTypeset.Text.LowerCase

/-!
# Selectors

A selector describes elements by name and attributes, and by the elements around them. Main definitions: `Selector`,
`Selector.holds` and `Place.select`.
-/

namespace WikiTypeset.Html

open Text

/-- What an attribute must be. -/
inductive AttributeTest
  /-- It is there. -/
  | present (name : String)
  /-- It has a value; a line feed at the end does not count. -/
  | equals (name : String) (value : List Char)
  deriving DecidableEq, Repr

/-- What an element itself must be: of a name, if one is given, and with attributes. -/
structure ElementTest where
  name? : Option String := none
  attributes : List AttributeTest := []
  deriving DecidableEq, Repr

/-- A description of elements. -/
inductive Selector
  /-- An element, wherever it stands. -/
  | anywhere (test : ElementTest)
  /-- An element at any depth below a described one. -/
  | inside (outer : Selector) (test : ElementTest)
  /-- A child of a described element. -/
  | childOf (outer : Selector) (test : ElementTest)
  /-- An element right after a described one, texts aside. -/
  | after (earlier : Selector) (test : ElementTest)
  deriving Repr

/-- The value of an attribute whose name is compared without regard to case. -/
def Element.valueNamed? (e : Element) (name : String) : Option AttrValue :=
  (e.attributes.find? fun a => a.name.toList.map asciiLower == name.toList.map asciiLower).map (·.value)

/-- Whether an attribute is what it must be. -/
def AttributeTest.holds (t : AttributeTest) (e : Element) : Bool :=
  match t with
  | present name => (e.valueNamed? name).isSome
  | equals name value =>
    match e.valueNamed? name with
    | some v => v.toText.toList = value || v.toText.toList = value ++ ['\n']
    | none => false

/-- Whether an element is what it must be. -/
def ElementTest.holds (t : ElementTest) (e : Element) : Bool :=
  (match t.name? with
    | some name => e.name = name
    | none => true) && t.attributes.all (·.holds e)

/-- Whether a selector describes the element at a place. -/
def Selector.holds : Selector → Place → Bool
  | anywhere test, p => test.holds p.element
  | inside outer test, p => test.holds p.element && p.ancestors.any outer.holds
  | childOf outer test, p => test.holds p.element && (p.parent?.map outer.holds).getD false
  | after earlier test, p => test.holds p.element && (p.previousElement?.map earlier.holds).getD false

/-- The places below a place that a selector describes, in document order. -/
def Place.select (p : Place) (s : Selector) : List Place := p.descendants.filter s.holds

/-- The character with a number in a quoted text of a selector. -/
def selectorChar (n : Nat) : Char := if n = 0 || !n.isValidChar then '\uFFFD' else Char.ofNat n

/-- The text that stands for `s` between double quotes in a selector, where a backslash escapes a character or begins
a number. There is none if `s` itself ends the quotes or the line. The first argument bounds the number of steps. -/
def selectorText? : Nat → List Char → Option (List Char)
  | _, [] => some []
  | 0, _ => none
  | fuel + 1, c :: s =>
    if c = '\\' then
      let digits := (s.takeWhile isHexDigit).take 6
      if !digits.isEmpty then
        let rest := match s.drop digits.length with
          | '\r' :: '\n' :: t => t
          | d :: t => if [' ', '\t', '\r', '\n', '\x0c'].contains d then t else d :: t
          | [] => []
        (selectorText? fuel rest).map (selectorChar (digitsValue 16 digits) :: ·)
      else match s with
        | [] => none
        | '\r' :: '\n' :: t => selectorText? fuel t
        | d :: t =>
          if d = '\n' || d = '\r' || d = '\x0c' then selectorText? fuel t
          else (selectorText? fuel t).map (d :: ·)
    else if c = '"' || c = '\n' || c = '\r' || c = '\x0c' then none
    else (selectorText? fuel s).map ((if c = '\x00' then '\uFFFD' else c) :: ·)

/-- The text that stands for `s` between double quotes in a selector. -/
def quotedSelectorText? (s : List Char) : Option (List Char) := selectorText? s.length s

end WikiTypeset.Html
