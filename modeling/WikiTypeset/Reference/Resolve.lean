import WikiTypeset.Reference.Parts

/-!
# References against a base

A relative reference is resolved against the reference of the document that it stands in. Main definition:
`resolve`.
-/

namespace WikiTypeset.Reference

open Text

/-- The segments of a path after steps to the parent are taken; those beyond the root are dropped. -/
def normalizeSegments (segments : List (List Char)) : List (List Char) :=
  let kept := segments.foldl (fun kept s =>
    if s = ['.', '.'] then kept.drop 1 else if s = ['.'] then kept else s :: kept) []
  let last := segments.getLast?.getD []
  (if last = ['.'] || last = ['.', '.'] then [] :: kept else kept).reverse

/-- The segments of a relative path that follow those of the base; empty ones inside are dropped. -/
def followingSegments (base path : List Char) : List (List Char) :=
  let slash := (· == '/')
  let parts := splitWhere slash base
  let parts := if parts.getLast? == some [] then parts else parts.dropLast
  let segments := parts ++ splitWhere slash path
  match segments with
  | first :: rest => first :: rest.dropLast.filter (!·.isEmpty) ++ rest.getLast?.toList
  | [] => []

/-- The path of a reference against the path of the base. -/
def resolvePath (base path : List Char) : List Char :=
  let segments :=
    if path.head? == some '/' then splitWhere (· == '/') path else followingSegments base path
  let resolved := joinWith ['/'] (normalizeSegments segments)
  if resolved.isEmpty then ['/'] else resolved

/-- The reference that `target` is in a document with the reference `base`. -/
def resolve (base target : List Char) : Except ReferenceError (List Char) := do
  if base.isEmpty then return target
  if target.isEmpty then return base
  let b ← Parts.ofText [] base
  let t ← Parts.ofText b.scheme target
  if t.scheme ≠ b.scheme || !isAmong relativeSchemes t.scheme then return target
  if isAmong authoritySchemes t.scheme && !t.authority.isEmpty then return t.toText
  let t := if isAmong authoritySchemes t.scheme then { t with authority := b.authority } else t
  if t.path.isEmpty && t.parameters.isEmpty then
    return { t with
      path := b.path
      parameters := b.parameters
      query := if t.query.isEmpty then b.query else t.query }.toText
  return { t with path := resolvePath b.path t.path }.toText

end WikiTypeset.Reference
