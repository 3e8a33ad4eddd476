import SassNesting.Document.Reading
import SassNesting.Regrouping.Pass

/-! # The log of a conversion

A conversion can be followed in a log: an event for each item read, a warning for a part of the text
that is ignored, and after each pass the size of the stylesheet. The events of a conversion are a
function of the reading and of the trees, so that nothing has to be recorded on the way. This relies
on items being logged exactly when they are kept, which is what a step of reading shows: an item
that is read adds its event and its node (`Directive.logged_readAll_of_ok`,
`Block.logged_readAll_of_ok`), and one at fault adds neither (`Directive.logged_readAll_of_error`,
`Block.logged_readAll_of_error`). -/

namespace SassNesting

/-! ## Levels -/

/-- The level of an event, the gravest first. -/
inductive Level where
  /-- Something failed. -/
  | error
  /-- Something was ignored. -/
  | warn
  /-- Something worth knowing happened. -/
  | info
  /-- A step is done. -/
  | debug
  /-- A detail of a step. -/
  | trace
deriving DecidableEq

namespace Level

/-- The name of a level in lower case. -/
def name : Level → Text
  | error => "error".toList
  | warn => "warn".toList
  | info => "info".toList
  | debug => "debug".toList
  | trace => "trace".toList

/-- The name of a level in capitals, as it stands in a log line. -/
def label (l : Level) : Text := l.name.map Char.toUpper

/-- The place of a level when the gravest comes first. -/
def rank : Level → Nat
  | error => 0
  | warn => 1
  | info => 2
  | debug => 3
  | trace => 4

end Level

/-! ## Events -/

/-- An event in the log. -/
inductive Event where
  /-- A directive was read. -/
  | directiveRead (name value : Text)
  /-- A block with so many declarations was read. -/
  | blockRead (selector : Text) (declarations : Nat)
  /-- The text ends with a selector that has no block. -/
  | selectorIgnored (selector : Text)
  /-- What follows a number of bytes does not start with a selector. -/
  | restIgnored (pos : Nat)
  /-- A stylesheet was read; it has so many nodes at the top and so many in all. -/
  | sheetRead (source : Text) (topLevel nodes : Nat)
  /-- A pass is done; it left so many nodes at the top and so many in all. -/
  | passDone (pass : Pass) (topLevel nodes : Nat)
  /-- The conversion of so many files of a directory begins. -/
  | directoryStarted (path : Text) (files : Nat)
deriving DecidableEq

namespace Event

/-- The level of an event. -/
def level : Event → Level
  | directiveRead _ _ => .trace
  | blockRead _ _ => .trace
  | selectorIgnored _ => .warn
  | restIgnored _ => .warn
  | sheetRead _ _ _ => .debug
  | passDone _ _ _ => .debug
  | directoryStarted _ _ => .debug

/-- What an event says. -/
def message : Event → Text
  | directiveRead _ _ => "directive parsed".toList
  | blockRead _ _ => "rule parsed".toList
  | selectorIgnored _ => "ignoring selector with no declaration block".toList
  | restIgnored _ => "ignoring trailing input that does not start a rule".toList
  | sheetRead _ _ _ => "parsed".toList
  | passDone _ _ _ => "transform pass complete".toList
  | directoryStarted _ _ => "converting directory".toList

end Event

/-- The value of a field of an event. -/
inductive FieldValue where
  /-- A text. -/
  | text (t : Text)
  /-- A number. -/
  | number (n : Nat)
deriving DecidableEq

/-- The fields of an event by their names: what the event is about, and the sizes it gives. -/
def Event.fields : Event → List (Text × FieldValue)
  | directiveRead name value => [("directive".toList, .text name), ("value".toList, .text value)]
  | blockRead selector declarations =>
    [("selector".toList, .text selector), ("attributes".toList, .number declarations)]
  | selectorIgnored selector => [("selector".toList, .text selector)]
  | restIgnored pos => [("pos".toList, .number pos)]
  | sheetRead source topLevel nodes =>
    [("source".toList, .text source), ("top_level".toList, .number topLevel),
      ("nodes".toList, .number nodes)]
  | passDone pass topLevel nodes =>
    [("stage".toList, .text pass.label), ("top_level".toList, .number topLevel),
      ("nodes".toList, .number nodes)]
  | directoryStarted path files => [("dir".toList, .text path), ("files".toList, .number files)]

/-- The value of a field as it stands in a log line. -/
def FieldValue.shown : FieldValue → Text
  | text t => t
  | number n => Text.ofNat n

/-- The log line of an event: its level, what it says, and its fields. -/
def Event.line (e : Event) : Text :=
  e.level.label ++ ' ' :: e.message ++
    e.fields.flatMap fun (name, value) => ' ' :: name ++ '=' :: value.shown

/-! ## The events of a conversion -/

/-- The event for a directive. -/
def Directive.event (d : Directive) : Event := .directiveRead d.name d.value

/-- The event for a block. -/
def Block.event (b : Block) : Event := .blockRead b.selector b.declarations.length

/-- The warning for the part of a text that is ignored at the end of its reading. -/
def Ending.warnings (t : Text) : Ending → List Event
  | complete => []
  | openSelector tokens => [.selectorIgnored (Selector.ofTokens tokens)]
  | trailing rest => [.restIgnored (Text.offset t rest)]
  | fault _ => []

/-- The events of reading a text: one for each item, and the warning at its end. -/
def Reading.events (t : Text) (r : Reading) : List Event :=
  r.directives.map Directive.event ++ r.blocks.map Block.event ++ r.ending.warnings t

/-! ## The events of the items

The event of an item and the node it makes up are put side by side, so that one equation tells what
a step of reading adds to the log and to the stylesheet. -/

namespace Directive

/-- The events of directives, each with the node that the directive makes up. -/
def logged (ds : List Directive) : List (Event × Node) := ds.map fun d => (d.event, d.node)

/-- A directive that is read adds `(d.event, d.node)`: one event and one node, in front of those of
the directives that follow. -/
theorem logged_readAll_of_ok {t rest : Text} {d : Directive} (h : read t = .ok (d, rest)) :
    logged (readAll ('@' :: t)).1 = (d.event, d.node) :: logged (readAll rest).1 := by
  rw [readAll_of_ok h, logged, List.map_cons, ← logged]

/-- A directive at fault adds neither an event nor a node. -/
theorem logged_readAll_of_error {t : Text} {fault : Fault} (h : read t = .error fault) :
    logged (readAll ('@' :: t)).1 = [] := by
  rw [readAll_of_error h, logged, List.map_nil]

/-- What holds of the event and the node of each directive that can be read holds of all that
`readAll` logs. -/
theorem forall_mem_logged {P : Event → Node → Prop}
    (h : ∀ t d rest, read t = .ok (d, rest) → P d.event d.node) (t : Text) :
    ∀ item ∈ logged (readAll t).1, P item.1 item.2 := by
  induction t using readAll.induct with
  | case1 t fault hread => simp [logged_readAll_of_error hread]
  | case2 t d rest hread ds result hrest ih =>
    rw [logged_readAll_of_ok hread, List.forall_mem_cons]
    exact ⟨h t d rest hread, ih⟩
  | case3 t hhead =>
    have hnone : t.head? ≠ some '@' := by
      intro hat
      obtain ⟨rest, rfl⟩ := List.head?_eq_some_iff.1 hat
      exact hhead rest rfl
    simp [readAll_of_head_ne hnone, logged]

end Directive

namespace Block

/-- The events of blocks, each with the node that the block makes up. -/
def logged (bs : List Block) : List (Event × Node) := bs.map fun b => (b.event, b.node)

/-- A block that is read adds `(b.event, b.node)`: one event and one node, in front of those of the
blocks that follow. -/
theorem logged_readAll_of_ok {t rest : Text} {b : Block} (h : read t = .ok (b, rest)) :
    logged (readAll t).1 = (b.event, b.node) :: logged (readAll rest).1 := by
  rw [readAll_of_ok h, logged, List.map_cons, ← logged]

/-- Where the reading of blocks ends, at a fault as elsewhere, neither an event nor a node is added.
-/
theorem logged_readAll_of_error {t : Text} {ending : Ending} (h : read t = .error ending) :
    logged (readAll t).1 = [] := by
  rw [readAll_of_error h, logged, List.map_nil]

/-- What holds of the event and the node of each block that can be read holds of all that `readAll`
logs. -/
theorem forall_mem_logged {P : Event → Node → Prop}
    (h : ∀ t b rest, read t = .ok (b, rest) → P b.event b.node) (t : Text) :
    ∀ item ∈ logged (readAll t).1, P item.1 item.2 := by
  induction t using readAll.induct with
  | case1 t ending hread => simp [logged_readAll_of_error hread]
  | case2 t b rest hread bs ending hrest ih =>
    rw [logged_readAll_of_ok hread, List.forall_mem_cons]
    exact ⟨h t b rest hread, ih⟩

end Block

namespace Reading

/-- The events of the items of a reading, each with the node that the item makes up. -/
def logged (r : Reading) : List (Event × Node) :=
  Directive.logged r.directives ++ Block.logged r.blocks

/-- `r.body = r.logged.map Prod.snd`: the nodes that are kept are those of the items that are
logged. -/
theorem body_eq_map_logged (r : Reading) : r.body = r.logged.map Prod.snd := by
  simp [body, logged, Directive.logged, Block.logged, Function.comp_def]

/-- `r.events t` lists the events of the items that are kept, and then the warning at the end. -/
theorem events_eq_map_logged (t : Text) (r : Reading) :
    r.events t = r.logged.map Prod.fst ++ r.ending.warnings t := by
  simp [events, logged, Directive.logged, Block.logged, Function.comp_def]

/-- What holds of the event and the node of each item that can be read holds of all items of a text,
those in front of a fault included. -/
theorem forall_mem_logged {P : Event → Node → Prop}
    (hdirective : ∀ t d rest, Directive.read t = .ok (d, rest) → P d.event d.node)
    (hblock : ∀ t b rest, Block.read t = .ok (b, rest) → P b.event b.node) (t : Text) :
    ∀ item ∈ (ofText t).logged, P item.1 item.2 := by
  have hdirectives := Directive.forall_mem_logged hdirective (Gap.skip t)
  have hblocks := Block.forall_mem_logged hblock
  unfold ofText
  rcases hread : Directive.readAll (Gap.skip t) with ⟨ds, fault | rest⟩
  · rw [hread] at hdirectives
    exact List.forall_mem_append.2 ⟨hdirectives, nofun⟩
  · rw [hread] at hdirectives
    exact List.forall_mem_append.2 ⟨hdirectives, hblocks rest⟩

end Reading

/-! ## The events of regrouping -/

/-- The events of regrouping a stylesheet: its size as it is read, and after each pass. -/
def Body.regroupEvents (source : Text) (raw : Body) : List Event :=
  .sheetRead source raw.length (Body.count raw) ::
    raw.stages.map fun (pass, body) => .passDone pass body.length (Body.count body)

end SassNesting
