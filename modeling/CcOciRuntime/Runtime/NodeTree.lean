import CcOciRuntime.Lib.Json
import CcOciRuntime.Lib.Decimal

/-!
# JSON documents as trees of text nodes

The readers of the runtime do not work on JSON but on a tree of nodes that carry a text or nothing.
The conversion forgets where an array or an object began: the elements of an array become siblings,
and an object becomes an empty node followed by one node for each member. `jsonParse` is that
conversion; the lemmas say what it makes of the shapes that the runtime writes.

Reference: `src/json.c:38-170`, `node_to_strv` (`src/util.c:446`).
-/

namespace CcOciRuntime

namespace Runtime

/-- A node of the tree, with its text (`data`) and its children in order. -/
inductive GNode
  | mk (data : Option String) (children : List GNode)

namespace GNode

def data : GNode → Option String
  | mk d _ => d

def children : GNode → List GNode
  | mk _ cs => cs

@[simp] theorem data_mk (d : Option String) (cs : List GNode) : (mk d cs).data = d := rfl

@[simp] theorem children_mk (d : Option String) (cs : List GNode) : (mk d cs).children = cs := rfl

/-- The text of the first child: `node->children->data`. -/
def childData (node : GNode) : Option String :=
  match node.children with
  | [] => none
  | child :: _ => child.data

/-- The name and the value of a node that has both. -/
def namedValue (node : GNode) : Option (String × String) :=
  match node.data, node.childData with
  | some name, some value => some (name, value)
  | _, _ => none

end GNode

/-- The node without a text that begins an object. -/
def blankNode : GNode := .mk none []

/-- The text of a scalar; a null has none. A real number has the text that it has in the file, which
the source prints with `%f`. Reference: `cc_oci_json_string` (`src/json.c:39`). -/
def jsonString : Json → Option String
  | .bool b => some (if b then "true" else "false")
  | .int n => some (toString n)
  | .real text => some text
  | .str s => some s
  | .null | .arr _ | .obj _ => none

mutual

/-- The nodes that a document adds to the children of the node it is converted under. Reference:
`cc_oci_json_parse_aux` (`src/json.c:82`). -/
def jsonParseAux (parsingArray : Bool) : Json → List GNode
  | .obj ms => blankNode :: jsonParseMembers ms
  | .arr xs => jsonParseElements xs
  | .null => []
  | .bool b => [.mk (jsonString (.bool b)) (if parsingArray then [blankNode] else [])]
  | .int n => [.mk (jsonString (.int n)) (if parsingArray then [blankNode] else [])]
  | .real text => [.mk (jsonString (.real text)) (if parsingArray then [blankNode] else [])]
  | .str s => [.mk (jsonString (.str s)) (if parsingArray then [blankNode] else [])]

/-- The members of an object, one node for each. -/
def jsonParseMembers : List (String × Json) → List GNode
  | [] => []
  | (key, value) :: ms => .mk (some key) (jsonParseAux false value) :: jsonParseMembers ms

/-- The elements of an array, one after the other. -/
def jsonParseElements : List Json → List GNode
  | [] => []
  | x :: xs => jsonParseAux true x ++ jsonParseElements xs

end

/-- The tree of a file's document. Reference: `cc_oci_json_parse` (`src/json.c:147`). -/
def jsonParse (filename : String) (doc : Json) : GNode :=
  .mk (some filename) (jsonParseAux false doc)

/-- The texts of nodes up to the first without one, which ends a vector. -/
def strvOf : List GNode → List String
  | [] => []
  | child :: rest =>
    match child.data with
    | some s => s :: strvOf rest
    | none => []

/-- Reference: `node_to_strv` (`src/util.c:446`). -/
def nodeToStrv (root : GNode) : List String := strvOf root.children

theorem jsonParseMembers_append (ms ms' : List (String × Json)) :
    jsonParseMembers (ms ++ ms') = jsonParseMembers ms ++ jsonParseMembers ms' := by
  induction ms with
  | nil => rfl
  | cons m ms ih => rw [List.cons_append, jsonParseMembers, ih, jsonParseMembers, List.cons_append]

/-- The node of a member of an object. -/
def memberNode (m : String × Json) : GNode := .mk (some m.1) (jsonParseAux false m.2)

theorem jsonParseMembers_eq_map (ms : List (String × Json)) :
    jsonParseMembers ms = ms.map memberNode := by
  induction ms with
  | nil => rfl
  | cons m ms ih => rw [jsonParseMembers, ih, List.map_cons, memberNode]

mutual

/-- A value of which something is left in the tree: a null leaves nothing, and an array what its
elements leave. -/
def hasValue : Json → Bool
  | .null => false
  | .arr xs => anyHasValue xs
  | .bool _ | .int _ | .real _ | .str _ | .obj _ => true

/-- Some element has a value. -/
def anyHasValue : List Json → Bool
  | [] => false
  | x :: xs => hasValue x || anyHasValue xs

end

mutual

/-- The text that is read of a value: of a scalar its text, of an array that of the first element
with a value; an object has none. -/
def valueText : Json → Option String
  | .null | .obj _ => none
  | .arr xs => firstText xs
  | .bool b => jsonString (.bool b)
  | .int n => jsonString (.int n)
  | .real text => jsonString (.real text)
  | .str s => jsonString (.str s)

/-- The text of the first element with a value. -/
def firstText : List Json → Option String
  | [] => none
  | x :: xs => if hasValue x then valueText x else firstText xs

end

mutual

/-- A value without text has no node. -/
theorem jsonParseAux_eq_nil {parsingArray : Bool} : ∀ {v : Json},
    jsonParseAux parsingArray v = [] ↔ hasValue v = false
  | .arr _ => jsonParseElements_eq_nil
  | .null => iff_of_true rfl rfl
  | .bool _ | .int _ | .real _ | .str _ | .obj _ =>
    iff_of_false (List.cons_ne_nil _ _) fun h => Bool.false_ne_true h.symm

/-- Nor have such elements. -/
theorem jsonParseElements_eq_nil : ∀ {xs : List Json},
    jsonParseElements xs = [] ↔ anyHasValue xs = false
  | [] => iff_of_true rfl rfl
  | x :: xs => by
    rw [jsonParseElements, List.append_eq_nil_iff, jsonParseAux_eq_nil, jsonParseElements_eq_nil,
      anyHasValue, Bool.or_eq_false_iff]

end

mutual

theorem head?_jsonParseAux (parsingArray : Bool) (v : Json) :
    (jsonParseAux parsingArray v).head?.bind GNode.data = valueText v := by
  cases v with
  | arr xs => exact head?_jsonParseElements xs
  | null | bool | int | real | str | obj => rfl

/-- The first node of an array has its first text. -/
theorem head?_jsonParseElements (xs : List Json) :
    (jsonParseElements xs).head?.bind GNode.data = firstText xs := by
  cases xs with
  | nil => rfl
  | cons x xs =>
    rw [jsonParseElements, firstText, List.head?_append]
    split_ifs with hx
    · have hne : jsonParseAux true x ≠ [] := fun hnil =>
        Bool.false_ne_true ((jsonParseAux_eq_nil.1 hnil).symm.trans hx)
      obtain ⟨node, nodes, hnodes⟩ := List.exists_cons_of_ne_nil hne
      rw [← head?_jsonParseAux true x, hnodes]
      rfl
    · rw [jsonParseAux_eq_nil.2 (Bool.eq_false_iff.2 hx)]
      exact head?_jsonParseElements xs

end

/-- The text of a member's node is the text of its value. -/
theorem childData_memberNode (m : String × Json) : (memberNode m).childData = valueText m.2 := by
  rw [← head?_jsonParseAux false m.2, GNode.childData, memberNode, GNode.children_mk]
  cases jsonParseAux false m.2 <;> rfl

theorem valueText_of_hasValue {v : Json} (h : hasValue v = false) : valueText v = none := by
  rw [← head?_jsonParseAux false v, jsonParseAux_eq_nil.2 h]
  rfl

/-- The text that is read of a member of an object. -/
def memberText (k : String) (ms : List (String × Json)) : Option String :=
  (Json.find k ms).bind valueText

/-- A member without a value has no text. -/
theorem memberText_eq (k : String) (ms : List (String × Json)) :
    memberText k ms =
      ((Json.find k ms).filter hasValue).elim none fun v => (memberNode (k, v)).childData := by
  rw [memberText]
  cases Json.find k ms with
  | none => rfl
  | some v =>
    rw [Option.filter_some, Option.bind_some]
    split_ifs with hvalue
    · exact (childData_memberNode (k, v)).symm
    · exact valueText_of_hasValue (Bool.eq_false_iff.2 hvalue)

/-- An array of texts is one node for each text. -/
theorem jsonParseElements_str (ss : List String) :
    jsonParseElements (ss.map .str) = ss.map fun s => .mk (some s) [blankNode] := by
  induction ss with
  | nil => rfl
  | cons s ss ih =>
    rw [List.map_cons, jsonParseElements, ih, List.map_cons]
    rfl

/-- The vector of texts that an array of texts was made of. -/
theorem nodeToStrv_str (name : Option String) (ss : List String) :
    nodeToStrv (.mk name (ss.map fun s => .mk (some s) [blankNode])) = ss := by
  induction ss with
  | nil => rfl
  | cons s ss ih =>
    rw [nodeToStrv, GNode.children_mk] at ih ⊢
    rw [List.map_cons, strvOf, GNode.data_mk, ih]

end Runtime

end CcOciRuntime
