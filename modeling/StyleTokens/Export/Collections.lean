import StyleTokens.Export.Format

namespace StyleTokens

namespace Collections

/-- An entry of a mode as it is kept. -/
def entryAsKept? (collection : Scalar) : Doc → Option Doc
  | .mapping entries =>
    match Doc.get? entries RecordKey.type, Doc.get? entries RecordKey.value with
    | some type, some _ =>
      some (.mapping (Ordered.insert
        (Ordered.insert entries (.text RecordKey.type) (currentType type))
        (.text RecordKey.collection) (.scalar collection)))
    | _, _ => none
  | _ => none

/-- The entries of a mode that are kept. -/
def keepMode (collection : Scalar) : Doc → Doc
  | .mapping entries =>
    .mapping (entries.filterMap fun p => (entryAsKept? collection p.2).map fun d => (p.1, d))
  | d => d

/-- The content of a collection with its modes as they are kept. -/
def keepCollection (collection : Scalar) (content : Doc) : Doc :=
  match content with
  | .mapping entries => match Doc.get? entries ExportKey.modes with
    | some (.mapping modes) =>
      .mapping (Ordered.insert entries (.text ExportKey.modes)
        (.mapping (modes.map fun p => (p.1, keepMode collection p.2))))
    | _ => content
  | _ => content

/-- The theme of an item of the list; its place counts from zero. -/
def keepItem (index : Nat) : Doc → Except Failure (Scalar × Doc)
  | .mapping ((name, content) :: _) => .ok (name, keepCollection name content)
  | _ => .error (.invalidCollection index)

/-- The themes of the items from a place on. -/
def keepItems : (index : Nat) → List Doc → Except Failure (List (Scalar × Doc))
  | _, [] => .ok []
  | index, d :: rest => do
    let item ← keepItem index d
    let items ← keepItems (index + 1) rest
    .ok (item :: items)

/-- The themes of an export. A collection or a mode of the wrong shape is passed on as it is. -/
def normalize : Doc → Except Failure (List (Scalar × Doc))
  | .list items => keepItems 0 items
  | _ => .error .notASequence

end Collections

end StyleTokens
