import EventWorker.Document

/-!
# Writing JSON

The compact text of a document: no white space, fields in their order, and in a string only quotes,
backslashes and controls escaped. Nodes that JSON has no form for are written as the nearest thing:
a plain scalar as a string, a tagged value without its tag, and a value that cannot be read as null.
-/

namespace EventWorker.Document

namespace Json

def hexChar (n : Nat) : Char :=
  if n < 10 then Char.ofNat (n + 48) else Char.ofNat (n - 10 + 97)

def escape (c : Char) : List Char :=
  if c = '"' then ['\\', '"']
  else if c = '\\' then ['\\', '\\']
  else if c = '\n' then ['\\', 'n']
  else if c = '\r' then ['\\', 'r']
  else if c = '\t' then ['\\', 't']
  else if c.toNat = 8 then ['\\', 'b']
  else if c.toNat = 12 then ['\\', 'f']
  else if c.toNat < 0x20 then ['\\', 'u', '0', '0', hexChar (c.toNat / 16), hexChar (c.toNat % 16)]
  else [c]

def quote (s : String) : List Char :=
  '"' :: s.toList.flatMap escape ++ ['"']

def keyText : Document → String
  | .text s => s
  | .plain s => s
  | .number s => s
  | .bool b => if b then "true" else "false"
  | .tagged _ d => keyText d
  | _ => "null"

mutual

def chars : Document → List Char
  | .null => "null".toList
  | .bool true => "true".toList
  | .bool false => "false".toList
  | .number s => s.toList
  | .text s => quote s
  | .plain s => quote s
  | .list [] => ['[', ']']
  | .list (d :: ds) => '[' :: chars d ++ itemsChars ds
  | .record [] => ['\x7b', '\x7d']
  | .record ((k, v) :: fs) => '\x7b' :: quote (keyText k) ++ ':' :: chars v ++ fieldsChars fs
  | .tagged _ d => chars d
  | _ => "null".toList

def itemsChars : List Document → List Char
  | [] => [']']
  | d :: ds => ',' :: chars d ++ itemsChars ds

def fieldsChars : List (Document × Document) → List Char
  | [] => ['\x7d']
  | (k, v) :: fs => ',' :: quote (keyText k) ++ ':' :: chars v ++ fieldsChars fs

end

end Json

def toJson (d : Document) : String :=
  String.ofList (Json.chars d)

end EventWorker.Document
