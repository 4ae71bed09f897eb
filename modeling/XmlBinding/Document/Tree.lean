import XmlBinding.Document.Event

/-!
# Document trees

An element with its content as a tree, and the tree as events. The events of a tree are properly
nested by construction.
-/

namespace XmlBinding

/-- A part of a document. -/
inductive Tree where
  | text (s : String)
  | element (name : QName) (attributes : List Attribute) (declarations : List Declaration)
    (content : List Tree)
  deriving Inhabited

namespace Tree

mutual

/-- The events of a tree in document order. -/
def events : Tree → List Event
  | .text s => [.text s]
  | .element name attributes declarations content =>
    .opening name attributes declarations :: (eventsOfAll content ++ [.closing name])

/-- The events of trees, one after the other. -/
def eventsOfAll : List Tree → List Event
  | [] => []
  | t :: rest => events t ++ eventsOfAll rest

end

end Tree

end XmlBinding
