import AnvilRun.Json

namespace AnvilRun

/-- A JavaScript value that is made of data. The item of an array that was never set is no value
at all. An object is its own properties, their names in the order of `Object.keys`. What is
neither, a function, a symbol or a bigint, is known by its `typeof` only. -/
inductive JsValue where
  | undefined
  | null
  | bool (value : Bool)
  | number (value : JsNumber)
  | string (value : JsString)
  | array (items : List (Option JsValue))
  | object (keys : List JsString) (value : JsString → JsValue)
  | other (typeName : JsString)

namespace JsValue

def isUndefined : JsValue → Bool
  | undefined => true
  | _ => false

/-- What reading a property gives. -/
def property (key : JsString) : JsValue → JsValue
  | object keys value => if key ∈ keys then value key else undefined
  | _ => undefined

def objectKeys : JsValue → List JsString
  | object keys _ => keys
  | _ => []

/-- The object with the given properties. Of two with one name the later counts. -/
def ofProperties (properties : List (JsString × JsValue)) : JsValue :=
  .object (properties.map Prod.fst).eraseDups (fun key =>
    ((properties.reverse.find? (fun entry => entry.1 = key)).map Prod.snd).getD .undefined)

mutual

/-- The value that `JSON.parse` builds for a document. -/
def ofJson : Json → JsValue
  | .null => .null
  | .bool b => .bool b
  | .number n => .number n
  | .string s => .string s
  | .array items => .array (ofItems items)
  | .object members => ofProperties (ofMembers members)

def ofItems : List Json → List (Option JsValue)
  | [] => []
  | item :: items => some (ofJson item) :: ofItems items

def ofMembers : List (JsString × Json) → List (JsString × JsValue)
  | [] => []
  | (name, value) :: members => (name, ofJson value) :: ofMembers members

end

mutual

/-- The document that `JSON.stringify` writes. A property without one is left out. -/
def toJson : JsValue → Option Json
  | undefined => none
  | null => some .null
  | bool b => some (.bool b)
  | number (.finite q) => some (.number (.finite q))
  | number _ => some .null
  | string s => some (.string s)
  | array items => some (.array (itemsToJson items))
  | object keys value =>
      some (.object (keys.filterMap (fun key => (toJson (value key)).map (fun doc => (key, doc)))))
  | other _ => none

/-- An item without a document is written as `null`. -/
def itemsToJson : List (Option JsValue) → List Json
  | [] => []
  | item :: items => (itemToJson item).getD .null :: itemsToJson items

def itemToJson : Option JsValue → Option Json
  | none => none
  | some value => toJson value

end

end JsValue

end AnvilRun
