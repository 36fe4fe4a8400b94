import Wireframe.Node.Writing

/-
  Wireframe.Scaffold — the document of one screen: its tree of nodes, and the settings it is
  checked against.
-/

namespace Wireframe

/-- The least size of what can be touched. -/
structure TouchTarget where
  w : Number
  h : Number
  given : List String

def TouchTarget.standard : TouchTarget := ⟨.int 44, .int 44, []⟩

structure Settings where
  /-- The distances that gaps and paddings may have. -/
  spacingScale : List (Spacing Float)
  minTouchTarget : TouchTarget
  /-- The viewports that the screen is meant for, as texts. -/
  breakpoints : List String
  given : List String

def standardScale : List (Spacing Float) :=
  [0.0, 4.0, 8.0, 12.0, 16.0, 24.0, 32.0, 48.0, 64.0].map .length

def standardBreakpoints : List String := ["320x640", "768x1024", "1280x800"]

def Settings.standard : Settings := ⟨standardScale, TouchTarget.standard, standardBreakpoints, []⟩

structure Screen where
  id : String
  title : Option String
  root : Node
  given : List String

structure Scaffold where
  schemaVersion : String
  screen : Screen
  settings : Settings
  given : List String

namespace Reading

open Shape

def touchTarget : Reading TouchTarget :=
  noted (TouchTarget.mk <$> optional Keys.width number TouchTarget.standard.w
    <*> optional Keys.height number TouchTarget.standard.h)

def settings : Reading Settings :=
  noted (Settings.mk <$> optional ⟨"spacingScale", "spacing_scale"⟩ (list Spacing.read) standardScale
    <*> optional ⟨"minTouchTarget", "min_touch_target"⟩ (record "TouchTarget" touchTarget)
      TouchTarget.standard
    <*> optional (.plain "breakpoints") (list Shape.text) standardBreakpoints)

def screen : Reading Screen :=
  noted (Screen.mk <$> required Keys.id Shape.text
    <*> nullable Keys.title Shape.text
    <*> required (.plain "root") Node.read)

def scaffold : Reading Scaffold :=
  noted (Scaffold.mk <$> optional ⟨"schemaVersion", "schema_version"⟩ Shape.text "1.0.0"
    <*> required (.plain "screen") (record "Screen" screen)
    <*> optional (.plain "settings") (record "Settings" settings) Settings.standard)

end Reading

def TouchTarget.read : Shape TouchTarget := Shape.record "TouchTarget" Reading.touchTarget

def TouchTarget.write (w : Writing) (t : TouchTarget) : Value :=
  .object (w.fields t.given [("w", .number t.w), ("h", .number t.h)])

def Settings.write (w : Writing) (s : Settings) : Value :=
  .object (w.fields s.given [("spacingScale", .list (s.spacingScale.map (Spacing.write w))),
    ("minTouchTarget", s.minTouchTarget.write w), ("breakpoints", .texts s.breakpoints)])

def Screen.write (w : Writing) (s : Screen) : Value :=
  .object (w.fields s.given [("id", .text s.id), ("title", .orNull .text s.title),
    ("root", s.root.write w)])

namespace Scaffold

/-- The scaffold that a document writes. -/
def read : Shape Scaffold := Shape.record "Scaffold" Reading.scaffold

def write (w : Writing) (s : Scaffold) : Value :=
  .object (w.fields s.given [("schemaVersion", .text s.schemaVersion),
    ("screen", s.screen.write w), ("settings", s.settings.write w)])

end Scaffold

end Wireframe
