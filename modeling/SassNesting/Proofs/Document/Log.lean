import Mathlib.Data.List.Forall2
import SassNesting.Proofs.Document.Ignored

/-! # What the log tells of a conversion

The log of a conversion can be held against the trees. Of a document that is parsed it tells one
node after another, then what is ignored, and then the sizes of the stages of regrouping. Of a
document with a syntax error it tells the nodes of another document: of the part in front of the
item at fault, which is a document without an error (`log_tells`). -/

namespace SassNesting

/-! ## Entries -/

/-- What an event is in the log. -/
structure LogEntry where
  /-- How grave it is. -/
  level : Level
  /-- What it says. -/
  message : Text
  /-- The fields it comes with. -/
  fields : List (Text × FieldValue)

/-- The entry of an event: its `level`, its `message` and its `fields`. -/
def Event.entry (e : Event) : LogEntry := ⟨e.level, e.message, e.fields⟩

/-- The log of converting a text `t`: the entries of its `conversionEvents`. -/
def conversionLog (o : Options) (t : Text) : List LogEntry := (conversionEvents o t).map Event.entry

/-- An entry that tells of a node as it is read. -/
inductive TellsOf : LogEntry → Node → Prop where
  /-- Of a directive it gives the name and the value. -/
  | directive (name value : Text) :
      TellsOf ⟨.trace, "directive parsed".toList,
          [("directive".toList, .text name), ("value".toList, .text value)]⟩
        (.verbatim ('@' :: name ++ ' ' :: value ++ [';']))
  /-- Of a rule it gives the selector and the number of nodes inside. -/
  | rule (selector : Text) (body : Body) :
      TellsOf ⟨.trace, "rule parsed".toList,
          [("selector".toList, .text selector), ("attributes".toList, .number body.length)]⟩
        (.rule selector body)

/-- Entries that tell of all nodes of a stylesheet in order (`TellsOf`), of the rules behind the
others. -/
def TellOfAll (entries : List LogEntry) (raw : Body) : Prop :=
  List.Forall₂ TellsOf entries (Body.plain raw ++ raw.filter Node.isRule)

/-- The entry that gives the sizes of a stylesheet `body`, with a field that names it. -/
def sizeEntry (message field name : Text) (body : Body) : LogEntry :=
  ⟨.debug, message, [(field, .text name), ("top_level".toList, .number body.length),
    ("nodes".toList, .number (Body.count body))]⟩

/-- The entry after a pass of regrouping, with the name of the pass as `stage`. -/
def passEntry (name : Text) (body : Body) : LogEntry :=
  sizeEntry "transform pass complete".toList "stage".toList name body

/-- The log of regrouping a stylesheet: its sizes as it is read and after each of the passes. -/
def regroupLog (source : Text) (raw : Body) : List LogEntry :=
  let pieces := Body.split raw
  let nested := Body.nest pieces
  let collapsed := Body.collapse nested
  [sizeEntry "parsed".toList "source".toList source raw, passEntry "expand-commas".toList pieces,
    passEntry "nest-rules".toList nested, passEntry "flatten-rules".toList collapsed,
    passEntry "fold-commas".toList (Body.merge collapsed)]

/-! ## The log of a document -/

/-- The log tells of the nodes of a stylesheet `raw`, warns of at most one thing, and gives the
sizes of the stages by `regroupLog`. -/
def TellsOfSheet (o : Options) (log : List LogEntry) (raw : Body) : Prop :=
  ∃ items warned, log = items ++ warned ++ regroupLog o.sourceName raw ∧ TellOfAll items raw ∧
    warned.length ≤ 1 ∧ ∀ entry ∈ warned, entry.level = .warn

/-- The log tells of the nodes of a document in front of the place `pos`, one that is parsed with
nothing to warn of, and of nothing else. -/
def TellsOfFront (o : Options) (log : List LogEntry) (t : Text) (pos : Nat) : Prop :=
  ∃ front rest raw, t = front ++ rest ∧ Text.byteSize front ≤ pos ∧ parse front = .ok raw ∧
    warnings o front = [] ∧ TellOfAll log raw

@[simp] theorem Directive.isRule_node (d : Directive) : d.node.isRule = false := rfl

@[simp] theorem Block.isRule_node (b : Block) : b.node.isRule = true := rfl

namespace Reading

/-- The nodes of `r.body` that are not rules are the directives of `r`. -/
theorem plain_body (r : Reading) : Body.plain r.body = r.directives.map Directive.node := by
  simp [body, Body.plain, List.filter_map, Function.comp_def]

/-- The rules of `r.body` are the blocks of `r`. -/
theorem rules_body (r : Reading) : r.body.filter Node.isRule = r.blocks.map Block.node := by
  simp [body, List.filter_map, Function.comp_def]

/-- The entries of the items that are logged: those of the events in `r.logged`. -/
def itemEntries (r : Reading) : List LogEntry := r.logged.map fun item => item.1.entry

/-- The items of a text `t` are logged with entries that tell of all nodes of `(ofText t).body`, one
after another. -/
theorem tellOfAll_itemEntries (t : Text) : TellOfAll (ofText t).itemEntries (ofText t).body := by
  -- A step of reading adds an item whose event tells of its node.
  have hdirective : ∀ d : Directive, TellsOf d.event.entry d.node :=
    fun d => .directive d.name d.value
  have hblock : ∀ b : Block, TellsOf b.event.entry b.node := by
    intro b
    have htells := TellsOf.rule b.selector (b.declarations.map Declaration.node)
    rwa [List.length_map] at htells
  have hitems : ∀ item ∈ (ofText t).logged, TellsOf item.1.entry item.2 :=
    let P (e : Event) (node : Node) : Prop := TellsOf e.entry node
    forall_mem_logged (P := P) (fun _ d _ _ => hdirective d) (fun _ b _ _ => hblock b) t
  have hbody : Body.plain (ofText t).body ++ (ofText t).body.filter Node.isRule =
      (ofText t).body := by
    rw [plain_body, rules_body, body]
  rw [TellOfAll, hbody, body_eq_map_logged, itemEntries, List.forall₂_map_left_iff,
    List.forall₂_map_right_iff, List.forall₂_same]
  exact hitems

/-- The entries of `r.events t` are those of its items, and then that of the warning at its end. -/
theorem map_entry_events (t : Text) (r : Reading) :
    (r.events t).map Event.entry = r.itemEntries ++ (r.ending.warnings t).map Event.entry := by
  rw [events_eq_map_logged, List.map_append, List.map_map]
  rfl

end Reading

/-- At most one thing is warned of at the end of a document: `(ending.warnings t).length ≤ 1`. -/
theorem Ending.length_warnings_le (t : Text) (ending : Ending) :
    (ending.warnings t).length ≤ 1 := by
  cases ending with
  | complete => exact Nat.zero_le 1
  | openSelector tokens => exact le_rfl
  | trailing rest => exact le_rfl
  | fault fault => exact Nat.zero_le 1

/-- **What the log tells.** For a document that is parsed to `raw`, the log of the conversion tells
of the nodes of `raw` in order, then of what is ignored, and then of the sizes of the stages
(`TellsOfSheet`). After a syntax error it has told of the nodes of a document in front of the place
`e.pos` of the error, one without errors and warnings, and tells no more (`TellsOfFront`). -/
theorem log_tells (o : Options) (t : Text) :
    (∀ raw, parse t = .ok raw → TellsOfSheet o (conversionLog o t) raw) ∧
      ∀ e, parse t = .error e → TellsOfFront o (conversionLog o t) t e.pos := by
  constructor
  · intro raw h
    obtain ⟨-, rfl⟩ := parse_eq_ok_iff_ofText.1 h
    refine ⟨_, ((Reading.ofText t).ending.warnings t).map Event.entry, ?_,
      Reading.tellOfAll_itemEntries t, ?_, ?_⟩
    · rw [conversionLog, conversionEvents, h, List.map_append, Reading.map_entry_events]
      rfl
    · rw [List.length_map]
      exact Ending.length_warnings_le t _
    · intro entry hentry
      obtain ⟨e, he, rfl⟩ := List.mem_map.1 hentry
      exact Ending.level_of_mem_warnings he
  · intro e h
    obtain ⟨fault, hending, rfl⟩ := exists_fault_of_parse h
    obtain ⟨front, own, ht, -, hfront⟩ := Reading.exists_missing hending
    -- In front of the item at fault is a document with the same items.
    have hwhole := isReadWhole_of_complete (t := front) (by rw [hfront]) o
    refine ⟨front, own ++ fault.rest, _, by rw [ht, List.append_assoc], ?_, hwhole.parsed,
      hwhole.quiet, ?_⟩
    · rw [Fault.toError, ht, Text.offset_append, Text.byteSize_append]
      exact Nat.le_add_right _ _
    · have htells := Reading.tellOfAll_itemEntries front
      rw [hfront] at htells ⊢
      have hlog : conversionLog o t = (Reading.ofText t).itemEntries := by
        rw [conversionLog, conversionEvents, h, List.append_nil, Reading.map_entry_events, hending,
          Ending.warnings, List.map_nil, List.append_nil]
      rw [hlog]
      exact htells

/-- A directive and a rule in front of a selector without a block; a directive and a rule in front
of a rule at fault. -/
theorem log_tells_twoItems :
    (∃ raw, parse "@x y; a, b c\x7bp:q\x7d d".toList = .ok raw ∧
        TellsOfSheet {} (conversionLog {} "@x y; a, b c\x7bp:q\x7d d".toList) raw) ∧
      parse "@x y; a\x7bp:q\x7d b\x7bp".toList = .error ⟨.colon, 16⟩ ∧
        TellsOfFront {} (conversionLog {} "@x y; a\x7bp:q\x7d b\x7bp".toList)
          "@x y; a\x7bp:q\x7d b\x7bp".toList 16 := by
  have hparse : parse "@x y; a, b c\x7bp:q\x7d d".toList = .ok [.verbatim "@x y;".toList,
      .rule "a, b c".toList [.declaration "p".toList "q".toList]] := by
    decide +kernel
  have herror : parse "@x y; a\x7bp:q\x7d b\x7bp".toList = .error ⟨.colon, 16⟩ := by decide +kernel
  exact ⟨⟨_, hparse, (log_tells {} _).1 _ hparse⟩, herror, (log_tells {} _).2 _ herror⟩

end SassNesting
