import Hailcast.Lib.JsonLines
import Hailcast.Lib.Machine
import Hailcast.Store.LocalStore
import Hailcast.Store.Working

/-!
# FileStore over texts

The operations of `FileStore` on S3 and on the disk, and the map from keys to texts that both stand for. Here every
object is kept by its text, and `json.dumps` and `json.loads` work on it. The data that is written holds only JSON
values, `NaN` and the infinities among them.
-/

namespace Hailcast

open JsonText (FloatFormat Units Value dumps loads universalNewlines)

/-- An operation with its arguments. -/
inductive StoreOp (φ : Type) where
  | writeText (key : StorePath) (content : String)
  | writeJson (key : StorePath) (data : Value String φ)
  | «exists» (key : StorePath)
  | readText (key : StorePath)
  | readJson (key : StorePath)
  | listKeys (pfx : StorePath)

inductive StoreReply (φ : Type) where
  | done
  | found (present : Bool)
  | text (content : Option Blob)
  | json (data : Option (Value Units φ))
  | keys (keys : List String)

abbrev StoreResult (φ : Type) := Except PyError (StoreReply φ)

variable {φ : Type} (F : FloatFormat φ)

/-- `json.dumps(data, ensure_ascii=False, default=str, indent=2)` -/
def dataText (data : Value String φ) : String := dumps F (.indented 2) data

/-- `json.loads(text) if text is not None else None` -/
def loadText : Option Blob → StoreResult φ
  | none => .ok (.json none)
  | some (.text content) =>
      match loads F content with
      | some data => .ok (.json (some data))
      | none => .error .valueError
  | some (.json _) => .error .valueError

/-! ## On S3 -/

def FileStore.onS3 (autoCreate : Bool) : StoreOp φ → StoreM (StoreReply φ)
  | .writeText key content => do
      FileStore.writeText autoCreate key.text (.text content)
      return .done
  | .writeJson key data => do
      FileStore.writeText autoCreate key.text (.text (dataText F data))
      return .done
  | .exists key => do return .found (← S3Adapter.exists key.text)
  | .readText key => do return .text (← FileStore.readText key.text)
  | .readJson key => do
      let text ← FileStore.readText key.text
      Prog.ofExcept (loadText F text)
  | .listKeys pfx => do return .keys (← FileStore.listKeys pfx.text)

def FileStore.s3Step (autoCreate : Bool) (env : StoreEnv) (s : S3State) (op : StoreOp φ) : StoreResult φ × S3State :=
  s.exec env (FileStore.onS3 F autoCreate op)

/-! ## On the disk -/

/-- `read_text(encoding="utf-8")`, which translates the line ends. -/
def Blob.translated : Blob → Blob
  | .text content => .text (String.ofList (universalNewlines content.toList))
  | .json data => .json data

namespace LocalStore

/-- `(self._local_dir / key).exists()` -/
def «exists» (s : LocalStore) (key : StorePath) : Bool := decide (key.parts ∈ s.files.keys ∨ s.IsDir key.parts)

/-- A directory cannot be read. -/
def readText (s : LocalStore) (key : StorePath) : Except PyError (Option Blob) :=
  if s.exists key then
    match s.files.get? key.parts with
    | some content => .ok (some content.translated)
    | none => .error .osError
  else .ok none

/-- A write that raises leaves the files as they are. -/
def put (s : LocalStore) (key : StorePath) (content : Blob) : StoreResult φ × LocalStore :=
  match s.writeText key content with
  | .ok s' => (.ok .done, s')
  | .error exc => (.error exc, s)

def step (s : LocalStore) : StoreOp φ → StoreResult φ × LocalStore
  | .writeText key content => s.put key (.text content)
  | .writeJson key data => s.put key (.text (dataText F data))
  | .exists key => (.ok (.found (s.exists key)), s)
  | .readText key => ((s.readText key).map .text, s)
  | .readJson key => ((s.readText key).bind (loadText F), s)
  | .listKeys pfx => (.ok (.keys (s.listKeys pfx)), s)

end LocalStore

/-! ## The map -/

/-- The texts by their keys. -/
abbrev StoredTexts := Dict String String

namespace StoredTexts

def blob (m : StoredTexts) (key : String) : Option Blob := (m.get? key).map .text

def step (m : StoredTexts) : StoreOp φ → StoreResult φ × StoredTexts
  | .writeText key content => (.ok .done, m.set key.text content)
  | .writeJson key data => (.ok .done, m.set key.text (dataText F data))
  | .exists key => (.ok (.found (m.get? key.text).isSome), m)
  | .readText key => (.ok (.text (m.blob key.text)), m)
  | .readJson key => (loadText F (m.blob key.text), m)
  | .listKeys pfx => (.ok (.keys (m.keys.filter fun key => StartsWith key pfx.text)), m)

end StoredTexts

/-! ## Keys -/

/-- The key is spelled as `list_keys` spells it. -/
def StorePath.Spelled (key : StorePath) : Prop := key.parts ≠ [] ∧ keyOf key.parts = key.text

instance (key : StorePath) : Decidable key.Spelled := inferInstanceAs (Decidable (_ ∧ _))

/-- The prefix is a directory, with the slash at its end. -/
def StorePath.Directory (pfx : StorePath) : Prop := pfx.parts ≠ [] ∧ pfx.text = keyOf pfx.parts ++ "/"

instance (pfx : StorePath) : Decidable pfx.Directory := inferInstanceAs (Decidable (_ ∧ _))

/-- The keys that the callers use: no key is a directory of another one, and a page of a listing has room for them. -/
structure Layout where
  keys : List StorePath
  spelled : ∀ key ∈ keys, key.Spelled
  apart : ∀ key ∈ keys, ∀ key' ∈ keys, ¬ LocalStore.Below key.parts key'.parts
  page : keys.length ≤ 1000

/-- The operation uses the keys of the layout, and lists directories. -/
def Layout.Allows (layout : Layout) : StoreOp φ → Prop
  | .writeText key _ => key ∈ layout.keys
  | .writeJson key _ => key ∈ layout.keys
  | .exists key => key ∈ layout.keys
  | .readText key => key ∈ layout.keys
  | .readJson key => key ∈ layout.keys
  | .listKeys pfx => pfx.Directory

/-! ## Comparing answers -/

/-- The text that is written has its line ends translated. -/
def StoreOp.translated : StoreOp φ → StoreOp φ
  | .writeText key content => .writeText key (String.ofList (universalNewlines content.toList))
  | op => op

/-- The same answer, up to the order of listed keys. -/
inductive StoreResult.Same : StoreResult φ → StoreResult φ → Prop where
  | equal (result : StoreResult φ) : Same result result
  | keys {keys keys' : List String} (h : keys.Perm keys') : Same (.ok (.keys keys)) (.ok (.keys keys'))

end Hailcast
