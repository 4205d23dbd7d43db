import WikiTypeset.Html.Selector

/-!
# The base of a document's references

A document may name the reference that its own relative references are resolved against.
-/

namespace WikiTypeset.Html

/-- The element that names the base. -/
def baseSelector : Selector :=
  .childOf (.anywhere { name? := some "head" }) { name? := some "base", attributes := [.present "href"] }

/-- The base that a document names, or nothing. One without a scheme is taken to be secure. -/
def baseReference (document : Element) : String :=
  match (Place.root document).select baseSelector with
  | [] => ""
  | p :: _ =>
    match (p.element.attr "href").toList with
    | '/' :: '/' :: rest => "https://" ++ String.ofList rest
    | href => String.ofList href

end WikiTypeset.Html
