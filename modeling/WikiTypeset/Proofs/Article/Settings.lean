import WikiTypeset.Article.Typesetter
import WikiTypeset.Proofs.Emission.Keeping

/-!
# Frames and settings

The frame of a typesetter is what content finds and leaves as it is whether or not it can be typeset. Its setting is the
frame with the options, the base direction and the font of Latin words. Outside the short form of a heading the last two
are those of the direction and the language of the place: then the setting is `Settled`.
-/

namespace WikiTypeset.Article

open Latex

/-! ### Frames -/

/-- What is the same before and after any content. -/
structure Frame where
  language : String
  direction : Direction
  kind? : Option ListKind
  inHeading : Bool
  headingDepth : Nat
  inFloat : Bool
  inList : Int
  inToc : Int

/-- The frame in another language. -/
def Frame.speaking (language : String) (f : Frame) : Frame := { f with language }

/-- The frame in another direction. -/
def Frame.facing (direction : Direction) (f : Frame) : Frame := { f with direction }

/-- The frame in the short form of a heading, or outside it. -/
def Frame.titled (inHeading : Bool) (f : Frame) : Frame := { f with inHeading }

/-- The frame inside a figure. -/
def Frame.floating (f : Frame) : Frame := { f with inFloat := true }

/-- The frame inside a heading. -/
def Frame.headed (f : Frame) : Frame := { f with headingDepth := f.headingDepth + 1 }

/-- The frame that is deeper in text for the table of contents. -/
def Frame.listed (n : Int) (f : Frame) : Frame := { f with inToc := f.inToc + n }

theorem Frame.listed_back (f : Frame) (n : Int) : (f.listed n).listed (-n) = f := by
  simp [listed, Int.add_neg_cancel_right]

/-- The frame that is deeper in lists. -/
def Frame.deeper (n : Int) (f : Frame) : Frame := { f with inList := f.inList + n }

theorem Frame.deeper_back (f : Frame) (n : Int) : (f.deeper n).deeper (-n) = f := by
  simp [deeper, Int.add_neg_cancel_right]

theorem Frame.deeper_forth (f : Frame) (n : Int) : (f.deeper (-n)).deeper n = f := by
  simp [deeper, Int.neg_add_cancel_right]

/-- The frame in a list of another kind, or in none. -/
def Frame.within (kind? : Option ListKind) (f : Frame) : Frame := { f with kind? }

/-- The frame of the place that a typesetter is at. -/
def Typesetter.frame (t : Typesetter) : Frame where
  language := t.language
  direction := t.direction
  kind? := t.list.kind?
  inHeading := t.inHeading
  headingDepth := t.headingDepth
  inFloat := t.inFloat
  inList := t.emitter.inList
  inToc := t.emitter.inToc

/-! ### Settings -/

/-- What is the same before and after content that can be typeset. -/
structure Setting where
  frame : Frame
  options : ArticleOptions
  paragraphDir : NamedDirection
  latinSwitch : Bool

/-- The setting that a typesetter is in. -/
def Typesetter.setting (t : Typesetter) : Setting where
  frame := t.frame
  options := t.options
  paragraphDir := t.emitter.paragraphDir
  latinSwitch := t.emitter.latinSwitch

/-- The setting in a changed frame. -/
def Setting.reframed (g : Frame → Frame) (s : Setting) : Setting := { s with frame := g s.frame }

/-- The setting with an emitter in another mode. -/
def Setting.inMode (m : EmitMode) (s : Setting) : Setting :=
  { s with
    frame := { s.frame with inList := m.inList, inToc := m.inToc }
    paragraphDir := m.paragraphDir
    latinSwitch := m.latinSwitch }

/-- Outside the short form of a heading, base direction and font are those of the place. -/
def Setting.Settled (s : Setting) : Prop :=
  s.frame.inHeading = false → s.paragraphDir = .known s.frame.direction ∧
    s.latinSwitch = !(Language.ofCode s.frame.language).latinCoverage

/-- The place is in a heading, or in its short form. -/
def Setting.headed (s : Setting) : Bool := s.frame.inHeading || s.frame.headingDepth ≠ 0

theorem frame_of_setting {t : Typesetter} {s : Setting} (h : t.setting = s) : t.frame = s.frame := congrArg Setting.frame h

theorem setting_of_mode {t : Typesetter} {e : Emitter} {m : EmitMode} (h : e.mode = m) :
    Typesetter.setting { t with emitter := e } = t.setting.inMode m := by
  subst h
  rfl

theorem frame_of_mode {t : Typesetter} {e : Emitter} (h : e.mode = t.emitter.mode) :
    Typesetter.frame { t with emitter := e } = t.frame := by
  exact frame_of_setting (setting_of_mode (t := t) h)

end WikiTypeset.Article
