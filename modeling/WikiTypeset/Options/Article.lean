import WikiTypeset.Bidi.Class
import WikiTypeset.Options.Setting

/-!
# Options for articles

How one document is typeset: its place in a collection, the language and direction of the collection, and the
resources that it may show.
-/

namespace WikiTypeset

open Options

/-- Options for one document. -/
structure ArticleOptions where
  /-- The reference that relative references are resolved against. -/
  baseUrl : String := ""
  /-- The language of the collection. -/
  lang : String := "en"
  /-- The direction of the collection. -/
  direction : Direction := .ltr
  /-- The image file of each resource. -/
  imageMap : List (String × String) := []
  /-- The image files that exist, as paths, if that is known. -/
  imageFiles? : Option (List String) := none
  /-- The collection is this document alone. -/
  singleItem : Bool := false
  /-- The collection has chapters. -/
  hasChapters : Bool := false
  /-- The document tells who wrote the others. -/
  isAttribution : Bool := false
  /-- Paragraphs are indented. -/
  parindent : Bool := false
  /-- The packages that formulas may use. -/
  mathPackages : List String := ["amsmath", "amssymb", "amsthm", "amstext"]
  deriving Repr

namespace ArticleOptions

/-- What settings say about the options that are checked last. -/
structure Unchecked where
  options : ArticleOptions := {}
  direction : Json := .text "ltr"
  lang : Json := .text "en"

/-- One setting taken over. -/
def Unchecked.set (u : Unchecked) (name : String) (v : Json) : Except OptionsError Unchecked := do
  let o := u.options
  match name with
  | "base_url" => return { u with options := { o with baseUrl := ← textSetting name v } }
  | "lang" => return { u with lang := v }
  | "dir" => return { u with direction := v }
  | "image_map" => return { u with options := { o with imageMap := ← mapSetting name v } }
  | "image_files" => return { u with options := { o with imageFiles? := some (← textsSetting name v) } }
  | "single_item" => return { u with options := { o with singleItem := flagSetting v } }
  | "has_chapters" => return { u with options := { o with hasChapters := flagSetting v } }
  | "is_attribution" => return { u with options := { o with isAttribution := flagSetting v } }
  | "parindent" => return { u with options := { o with parindent := flagSetting v } }
  | "math_packages" => return { u with options := { o with mathPackages := ← textsSetting name v } }
  | _ => throw (.unknownName name)

/-- The options after the checks. -/
def Unchecked.check (u : Unchecked) : Except OptionsError ArticleOptions := do
  let direction ← match u.direction with
    | .text s => (Direction.ofName? s).elim (.error (.badDirection u.direction)) .ok
    | v => .error (.badDirection v)
  unless u.lang.isTruthy do throw .noLanguage
  return { u.options with direction, lang := ← textSetting "lang" u.lang }

/-- The options with some of them set anew. -/
def update (o : ArticleOptions) (settings : Settings) : Except OptionsError ArticleOptions := do
  let start : Unchecked := { options := o, direction := .text o.direction.name, lang := .text o.lang }
  let u ← settings.foldlM (fun u (name, v) => u.set name v) start
  u.check

/-- The options that settings describe. -/
def ofSettings (settings : Settings) : Except OptionsError ArticleOptions := update {} settings

/-- The options for a document with the given base, unless they name a base of their own. -/
def withBase (o : ArticleOptions) (base : String) : ArticleOptions :=
  if o.baseUrl.isEmpty then { o with baseUrl := base } else o

end ArticleOptions

end WikiTypeset
