import WikiTypeset.Conversion.Workshop

/-!
# Programs for images

The programs that convert images, and which of them are missing.
-/

namespace WikiTypeset.Media

/-- A program and what it is needed for. -/
structure Tool where
  name : String
  purpose : String
  deriving DecidableEq, Repr

/-- The programs each of which is needed. -/
def neededTools : List Tool :=
  [⟨"convert", "GIF to PNG conversion"⟩, ⟨"jpegtran", "JPEG metadata stripping"⟩, ⟨"mogrify", "JPEG density reset"⟩,
    ⟨"pdfseparate", "PDF page extraction"⟩]

/-- The programs one of which is needed. -/
def alternativeTools : List Tool :=
  [⟨"rsvg-convert", "SVG to PDF conversion"⟩, ⟨"inkscape", "SVG to PDF conversion"⟩]

/-- The programs that are missing: a needed one that is not installed, and all alternatives if none of them is. -/
def missingTools (programs : Programs) : List Tool :=
  let isMissing (tool : Tool) : Bool := (programs.find? tool.name).isNone
  neededTools.filter isMissing ++ if alternativeTools.all isMissing then alternativeTools else []

end WikiTypeset.Media
