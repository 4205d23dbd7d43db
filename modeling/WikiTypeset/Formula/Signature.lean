/-!
# Arguments of commands

Which arguments a known command or environment takes. An unknown one takes none.
-/

namespace WikiTypeset.Formula

/-- A kind of argument. -/
inductive ArgKind
  /-- One brace group, one command or one character. -/
  | mandatory
  /-- A group in square brackets, which may be missing. -/
  | optional
  /-- A star, which may be missing. -/
  | star
  deriving DecidableEq, Repr

/-- The arguments of a command. A tight command takes an optional argument only if no blank stands before it. -/
structure Signature where
  args : List ArgKind
  tight : Bool := false
  deriving DecidableEq, Repr

/-- No arguments. -/
def Signature.empty : Signature := { args := [] }

/-- The kinds of arguments in shorthand: an opening brace, an opening bracket or a star for each. -/
def argKinds (shorthand : String) : List ArgKind :=
  shorthand.toList.map fun c => if c = '*' then .star else if c = '[' then .optional else .mandatory

/-- Commands with one mandatory argument: fonts, accents, and constructions over or under their argument. -/
def unaryCommands : List String :=
  ["input", "include", "bibliography", "title", "author", "date", "mbox",
    "emph", "textrm", "textit", "textbf", "textmd", "textsc", "textsf", "textsl", "texttt", "textup", "text",
    "mathrm", "mathbb", "mathbf", "mathit", "mathsf", "mathtt", "mathcal", "mathscr", "mathfrak",
    "label", "ref", "autoref", "cref", "Cref", "eqref", "url", "hypersetup", "keywords",
    "'", "\x60", "\"", "c", "^", "~", "H", "k", "=", "b", ".", "d", "r", "u", "v",
    "ensuremath", "not",
    "vec", "dot", "hat", "check", "breve", "acute", "grave", "tilde", "bar", "ddot",
    "overline", "underline", "widehat", "widetilde", "wideparen",
    "overleftarrow", "overrightarrow", "overleftrightarrow",
    "underleftarrow", "underrightarrow", "underleftrightarrow",
    "overbrace", "underbrace", "overgroup", "undergroup", "overbracket", "underbracket",
    "overlinesegment", "underlinesegment", "overleftharpoon", "overrightharpoon",
    "ket", "bra"]

/-- Commands with two mandatory arguments. -/
def binaryCommands : List String := ["frac", "nicefrac", "braket", "ketbra", "texorpdfstring"]

/-- Commands with an optional argument before a mandatory one. -/
def optionCommands : List String :=
  ["documentclass", "usepackage", "RequirePackage", "selectlanguage", "includegraphics", "footnote",
    "hphantom", "vphantom", "sqrt", "xleftarrow", "xrightarrow", "color", "pagecolor"]

/-- The other commands that take arguments. -/
def furtherCommands : List (String × String) :=
  [("setlength", "[\x7b\x7b"), ("addlength", "[\x7b\x7b"), ("setcounter", "[\x7b\x7b"), ("addcounter", "[\x7b\x7b"),
    ("newcommand", "*\x7b[[\x7b"), ("renewcommand", "*\x7b[[\x7b"), ("providecommand", "*\x7b[[\x7b"),
    ("newenvironment", "*\x7b[[\x7b\x7b"), ("renewenvironment", "*\x7b[[\x7b\x7b"),
    ("provideenvironment", "*\x7b[[\x7b\x7b"),
    ("DeclareMathOperator", "*\x7b\x7b"), ("hspace", "*\x7b"), ("vspace", "*\x7b"),
    ("item", "["),
    ("chapter", "*[\x7b"), ("section", "*[\x7b"), ("subsection", "*[\x7b"), ("subsubsection", "*[\x7b"),
    ("pagagraph", "*[\x7b"), ("subparagraph", "*[\x7b"),
    ("definecolor", "[\x7b\x7b\x7b"), ("providecolor", "[\x7b\x7b\x7b"), ("colorlet", "[\x7b[\x7b"),
    ("textcolor", "[\x7b\x7b"), ("colorbox", "[\x7b\x7b"), ("fcolorbox", "[\x7b[\x7b\x7b"),
    ("boxframe", "\x7b\x7b\x7b"), ("rowcolors", "*[\x7b\x7b\x7b"),
    ("cite", "*[[\x7b"), ("citet", "*[[\x7b"), ("citep", "*[[\x7b"), ("citealt", "*[[\x7b"),
    ("citealp", "*[[\x7b"), ("citeauthor", "*[[\x7b"), ("citefullauthor", "[[\x7b"), ("citeyear", "[[\x7b"),
    ("citeyearpar", "[[\x7b"), ("Citet", "*[[\x7b"), ("Citep", "*[[\x7b"), ("Citealt", "*[[\x7b"),
    ("Citealp", "*[[\x7b"), ("Citeauthor", "*[[\x7b"), ("citetext", "\x7b"), ("citenum", "\x7b"),
    ("defcitealias", "\x7b\x7b"), ("citetalias", "[[\x7b"), ("citepalias", "[[\x7b")]

/-- The arguments of a command. -/
def commandSignature (name : String) : Signature :=
  if name = "\\" then { args := [.star, .optional], tight := true }
  else if unaryCommands.contains name then { args := [.mandatory] }
  else if binaryCommands.contains name then { args := [.mandatory, .mandatory] }
  else if optionCommands.contains name then { args := [.optional, .mandatory] }
  else match furtherCommands.find? (·.1 == name) with
    | some (_, shorthand) => { args := argKinds shorthand }
    | none => .empty

/-- The environments that take arguments. -/
def environmentArgs : List (String × String) :=
  [("figure", "["), ("figure*", "["), ("table", "["), ("table*", "["),
    ("tabular", "\x7b"), ("tabular*", "\x7b\x7b"), ("tabularx", "\x7b[\x7b"),
    ("array", "[\x7b"), ("alignat", "\x7b"), ("alignat*", "\x7b"),
    ("enumerate", "["), ("itemize", "["), ("description", "["),
    ("theorem", "["), ("proposition", "["), ("lemma", "["), ("corollary", "["), ("definition", "["),
    ("conjecture", "["), ("remark", "["), ("proof", "["), ("thm", "["), ("lem", "["), ("prop", "["),
    ("cor", "["), ("conj", "["), ("rem", "["), ("defn", "[")]

/-- The arguments of an environment. -/
def environmentSignature (name : String) : Signature :=
  match environmentArgs.find? (·.1 == name) with
  | some (_, shorthand) => { args := argKinds shorthand }
  | none => .empty

end WikiTypeset.Formula
