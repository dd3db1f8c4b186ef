/-!
# Markup text

Text between tags. The five characters that markup reserves are written as entities, and all others
stand as they are.
-/

namespace Dalvik.Text

/-- The written form of a character between tags. As in the full escape of `quick-xml`, all five
reserved characters become entities, the quotes included, and no other character changes. -/
def entity (c : Char) : List Char :=
  match c with
  | '<' => ['&', 'l', 't', ';']
  | '>' => ['&', 'g', 't', ';']
  | '&' => ['&', 'a', 'm', 'p', ';']
  | '\'' => ['&', 'a', 'p', 'o', 's', ';']
  | '"' => ['&', 'q', 'u', 'o', 't', ';']
  | c => [c]

/-- The written form of a text between tags. -/
def markup (text : String) : String :=
  String.ofList (text.toList.flatMap entity)

end Dalvik.Text
