import Dalvik.Pool.Types
import Dalvik.Text.Escaped
import Dalvik.Text.Markup

/-!
# Listings

The strings and types of a file, for people to read and as markup. Both forms have the entries in
file order, each with its index.
-/

namespace Dalvik

namespace Listing

open Text

/-- One entry of the readable form, on a line of its own. -/
def line (title : String) (index : Nat) (text : String) : String :=
  s!"{title} ({index}): {hex index}-> \"{escaped text}\"\n"

/-- The readable form: a heading, then one line per entry. -/
def readable (title : String) (texts : List String) : String :=
  s!"=========== DEX {title}s ===========\n" ++
    String.join (texts.zipIdx.map fun (text, index) => line title index text)

/-- One entry of the markup form. -/
def element (tag : String) (index : Nat) (text : String) : String :=
  s!"\t<{tag}>\n\t\t<id>{hex index}</id>\n\t\t<value>{markup text}</value>\n\t</{tag}>\n"

/-- The markup form. -/
def tagged (tag : String) (texts : List String) : String :=
  s!"<{tag}s>\n" ++ String.join (texts.zipIdx.map fun (text, index) => element tag index text) ++
    s!"</{tag}s>\n"

end Listing

/-- The readable form of the strings. -/
def Pool.Strings.listing (pool : Pool.Strings) : String :=
  Listing.readable "String" pool.texts

/-- The markup form of the strings. -/
def Pool.Strings.markup (pool : Pool.Strings) : String :=
  Listing.tagged "string" pool.texts

/-- The readable form of the types. -/
def Pool.Types.listing (pool : Pool.Types) : String :=
  Listing.readable "Type" pool.texts

/-- The markup form of the types. -/
def Pool.Types.markup (pool : Pool.Types) : String :=
  Listing.tagged "type" pool.texts

end Dalvik
