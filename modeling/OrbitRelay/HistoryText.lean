import OrbitRelay.HistoryWalk

/-!
# History requests and pages as texts

A wire for concrete runs. A request or a page is the list of its fields, and a text
is its fields one after another, each closed by a semicolon. Positions are tallies.
-/
namespace OrbitRelay.CanvasHistory

open Codec MachineInt Storage EventStore Canvas

/-- A field with its semicolons and tildes escaped, closed by a semicolon. -/
def closeField : List Char → List Char
  | [] => [';']
  | c :: s => if c = ';' ∨ c = '~' then '~' :: c :: closeField s else c :: closeField s

/-- Split a text into its fields, where `field` is what the current one has so far. -/
def splitFields (escaped : Bool) (field : List Char) : List Char → Option (List (List Char))
  | [] => if field = [] then some [] else none
  | c :: s =>
    if escaped then splitFields false (field ++ [c]) s
    else if c = ';' then (splitFields false [] s).map (field :: ·)
    else if c = '~' then splitFields true field s
    else splitFields false (field ++ [c]) s

theorem splitFields_closeField (field s rest : List Char) :
    splitFields false field (closeField s ++ rest) =
      (splitFields false [] rest).map ((field ++ s) :: ·) := by
  induction s generalizing field with
  | nil => simp [closeField, splitFields]
  | cons c s ih =>
    by_cases hc : c = ';' ∨ c = '~'
    · simp [closeField, splitFields, hc, ih]
    · have hc' : c ≠ ';' ∧ c ≠ '~' := not_or.mp hc
      simp [closeField, splitFields, hc', ih]

def textOf (fields : List String) : String := String.ofList (fields.flatMap (fun s => closeField s.toList))

def fieldsOf (text : String) : Option (List String) :=
  (splitFields false [] text.toList).map (List.map String.ofList)

theorem fieldsOf_textOf (fields : List String) : fieldsOf (textOf fields) = some fields := by
  have hsplit : splitFields false [] (fields.flatMap (fun s => closeField s.toList)) =
      some (fields.map String.toList) := by
    induction fields with
    | nil => rfl
    | cons s fields ih => simp [splitFields_closeField, ih]
  simp [fieldsOf, textOf, hsplit]

theorem textOf_append (a b : List String) : textOf (a ++ b) = textOf a ++ textOf b := by
  simp [textOf, String.ofList_append]

def tally (n : Nat) : String := String.ofList (List.replicate n '1')

@[simp] theorem tally_length (n : Nat) : (tally n).length = n := by simp [tally]

abbrev TextToken := String × String × Nat

def dtoFields (dto : HistoryEventDto textCanvas) : List String :=
  [dto.eventId, dto.sessionId, dto.actorId, dto.actionId, dto.eventType.asStr, dto.occurredAt, dto.payload,
    dto.metadata]

def dtosOf : List String → Option (List (HistoryEventDto textCanvas))
  | [] => some []
  | eventId :: sessionId :: actorId :: actionId :: eventType :: occurredAt :: payload :: metadata :: fields =>
    (dtosOf fields).map
      (⟨eventId, sessionId, actorId, actionId, ⟨eventType⟩, occurredAt, payload, metadata⟩ :: ·)
  | _ => none

theorem dtosOf_dtoFields (dtos : List (HistoryEventDto textCanvas)) :
    dtosOf (dtos.flatMap dtoFields) = some dtos := by
  induction dtos with
  | nil => rfl
  | cons dto dtos ih =>
    change (dtosOf (dtos.flatMap dtoFields)).map (dto :: ·) = _
    rw [ih]
    rfl

def tokenFields (token : TextToken) : List String := [token.1, token.2.1, tally token.2.2]

/-- The fields of a page before its events. -/
def headFields (canvasId : String) (checkpoint : TextToken) (next : Option TextToken) (complete : Bool) :
    List String :=
  canvasId :: (if complete then "1" else "0") :: (if next.isSome then "1" else "0") ::
    (tokenFields checkpoint ++ tokenFields (next.getD ("", "", 0)))

def pageFields (page : CanvasHistoryPageDto textCanvas) : List String :=
  headFields page.canvasId page.checkpoint page.nextCursor page.complete ++ page.events.flatMap dtoFields

theorem pageFields_size (canvasId : String) (checkpoint : TextToken) (events : List (HistoryEventDto textCanvas))
    (next : Option TextToken) (complete : Bool) :
    (textOf (pageFields ⟨canvasId, checkpoint, events, next, complete⟩)).utf8ByteSize =
      (textOf (headFields canvasId checkpoint next complete)).utf8ByteSize +
        (events.map (fun dto => (textOf (dtoFields dto)).utf8ByteSize)).sum := by
  rw [pageFields, textOf_append, String.utf8ByteSize_append]
  congr 1
  induction events with
  | nil => rfl
  | cons dto dtos ih => simp [textOf_append, ih]

def pageFrom : List String → Option (CanvasHistoryPageDto textCanvas)
  | canvasId :: complete :: isSome :: store :: epoch :: position :: store' :: epoch' :: position' :: fields =>
    (dtosOf fields).map (fun events => ⟨canvasId, (store, epoch, position.length), events,
      if isSome = "1" then some (store', epoch', position'.length) else none, complete = "1"⟩)
  | _ => none

theorem pageFrom_headFields (canvasId : String) (checkpoint : TextToken) (next : Option TextToken) (complete : Bool)
    (fields : List String) : pageFrom (headFields canvasId checkpoint next complete ++ fields) =
      (dtosOf fields).map (fun events => ⟨canvasId, checkpoint, events, next, complete⟩) := by
  cases next <;> cases complete <;> simp [headFields, tokenFields, pageFrom]
  all_goals rfl

theorem pageFrom_pageFields (page : CanvasHistoryPageDto textCanvas) : pageFrom (pageFields page) = some page := by
  have hhead := pageFrom_headFields page.canvasId page.checkpoint page.nextCursor page.complete
    (page.events.flatMap dtoFields)
  rw [dtosOf_dtoFields] at hhead
  exact hhead

def requestFields (canvasId : String) : Bounds textCanvas → List String
  | none => [canvasId]
  | some (checkpoint, cursor) => canvasId :: (tokenFields checkpoint ++ tokenFields cursor)

def requestFrom : List String → Option (CanvasHistoryRequest textCanvas)
  | [canvasId] => some (.first canvasId)
  | [canvasId, store, epoch, position, store', epoch', position'] =>
    some (.continuation canvasId (store, epoch, position.length) (store', epoch', position'.length))
  | _ => none

theorem requestFrom_requestFields (canvasId : String) (bounds : Bounds textCanvas) :
    requestFrom (requestFields canvasId bounds) = some (requestOf (C := textCanvas) canvasId bounds) := by
  cases bounds with
  | none => rfl
  | some b =>
    obtain ⟨⟨store, epoch, position⟩, store', epoch', position'⟩ := b
    simp [requestFields, tokenFields, requestFrom, requestOf]

/-- Besides its payload a response has an envelope of a hundred bytes and its query type. -/
def textWire : Wire textCanvas where
  MessageId := Nat
  decodeRequest := fun (payload : String) => (fieldsOf payload).bind requestFrom
  encodePage page := some (textOf (pageFields page))
  decodePage := fun (payload : String) => (fieldsOf payload).bind pageFrom
  decodePage_encodePage := by
    rintro page payload hpage
    cases hpage
    simp [fieldsOf_textOf, pageFrom_pageFields]
  encodedSize _ queryType := fun (payload : String) => some (100 + queryType.utf8ByteSize + payload.utf8ByteSize)

/-- The `k`-th request of a client that walks through a Canvas. -/
def textRequest (canvasId : String) (k : Nat) (bounds : Bounds textCanvas) : QueryRequest textWire :=
  ⟨k, canvasHistoryPageQueryType, textOf (requestFields canvasId bounds)⟩

theorem decodeRequest_textRequest (canvasId : String) (k : Nat) (bounds : Bounds textCanvas) :
    textWire.decodeRequest (textRequest canvasId k bounds).payload =
      some (requestOf (C := textCanvas) canvasId bounds) := by
  simp only [textWire, textRequest, fieldsOf_textOf, Option.bind_some]
  exact requestFrom_requestFields canvasId bounds

end OrbitRelay.CanvasHistory
