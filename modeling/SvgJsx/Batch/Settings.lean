import SvgJsx.Convert.Pipeline
import SvgJsx.Path.Relative

/-! Where the components of a directory of drawings are written. A component keeps the place of its
drawing below the directory and is named after the drawing's stem. -/

namespace SvgJsx.Batch
open Text

structure Settings where
  inputDir : Path
  outputDir : Path
  extension : Text
  /-- The settings of the conversions, but for the component name. -/
  options : Options := {}
  deriving DecidableEq, Repr

namespace Settings

def componentFile (s : Settings) (source : Path) : Text :=
  Component.nameOfStem source.stem ++ '.' :: s.extension

/-- The directory of a drawing as seen from the input directory; empty for one that does not lie
below it. -/
def relativeDir (s : Settings) (source : Path) : Path :=
  (source.parent?.bind (Path.below? s.inputDir)).getD ⟨[]⟩

def outputPath (s : Settings) (source : Path) : Path :=
  (s.outputDir.join (s.relativeDir source)).join ⟨s.componentFile source⟩

end Settings
end SvgJsx.Batch
