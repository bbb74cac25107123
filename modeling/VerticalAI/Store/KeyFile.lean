import VerticalAI.Foundation.Base64
import VerticalAI.Foundation.Utf8
import VerticalAI.Store.Keys

/-! Key files: whoever finds none makes one and writes a fresh key into it, and whoever finds one
reads the key there, all without a lock. The master key and the device key of a node are kept so.
-/

namespace VerticalAI.Store
open VerticalAI.Foundation VerticalAI.Contracts

/-- Why a key was not loaded. -/
inductive KeyRefusal where
  | create (reason : String)
  | write (reason : String)
  | metadata (reason : String)
  | readableByOthers
  | read (reason : String)
  | notUtf8
  | notBase64
  | length

def decodeKey (text : List Char) : Except KeyRefusal SecretKey :=
  match Base64.decode text with
  | none => .error .notBase64
  | some bytes =>
      match sized 32 bytes with
      | none => .error .length
      | some key => .ok key

/-- The bytes a key is written as. -/
def keyBytes (key : SecretKey) : List UInt8 := Utf8.encode (Base64.encode key.val)

/-- The key that the bytes of a file spell. -/
def readKey (bytes : List UInt8) : Except KeyRefusal SecretKey :=
  match Utf8.decode bytes with
  | none => .error .notUtf8
  | some text => decodeKey (Text.trim text)

structure KeyFile where
  bytes : List UInt8
  mode : UInt32

/-- How far a process is with loading the key: it made the file and has these bytes left to
write, or it found the file and looks at its mode, then reads it.
-/
inductive Loading where
  | idle
  | filling (key : SecretKey) (left : List UInt8)
  | looking
  | reading
  | loaded (key : SecretKey)
  | refused (why : KeyRefusal)

/-- The loader is in the middle of its work. -/
def Loading.busy : Loading → Bool
  | .filling _ _ | .looking | .reading => true
  | .idle | .loaded _ | .refused _ => false

/-- A place for a key file, and the processes that load it. -/
structure KeyPlace where
  file : Option KeyFile
  loaders : Nat → Loading

/-- One effect of a process, with the fault it has if any; or what is done to it or to the file from
outside.
-/
inductive KeyEvent where
  | create (process : Nat) (fresh : SecretKey) (fault : Option String)
  | write (process : Nat) (count : Nat) (fault : Option String)
  | look (process : Nat) (fault : Option String)
  | read (process : Nat) (fault : Option String)
  | die (process : Nat)
  | chmod (mode : UInt32)

namespace KeyPlace

/-- A place where nobody has begun to load. -/
def start (file : Option KeyFile) : KeyPlace := ⟨file, fun _ => .idle⟩

def enter (place : KeyPlace) (process : Nat) (loading : Loading) : KeyPlace :=
  { place with loaders := Function.update place.loaders process loading }

theorem enter_loaders (place : KeyPlace) (process : Nat) (loading : Loading) (other : Nat)
    : (place.enter process loading).loaders other
      = if other = process then loading else place.loaders other :=
  Function.update_apply place.loaders process loading other

/-- More bytes land in the file. -/
def grow (place : KeyPlace) (bytes : List UInt8) : KeyPlace :=
  { place with file := place.file.map fun file => { file with bytes := file.bytes ++ bytes } }

/-- Begin to load: make the file, for its owner only, unless there is one. -/
def create (place : KeyPlace) (process : Nat) (fresh : SecretKey) : KeyPlace :=
  match place.file with
  | none =>
      let made : KeyPlace := { place with file := some ⟨[], 0o600⟩ }
      made.enter process (.filling fresh (keyBytes fresh))
  | some _ => place.enter process .looking

/-- One part of what is written lands; the whole has landed, or the rest is still to be written,
or it never will be.
-/
def write (place : KeyPlace) (process : Nat) (key : SecretKey) (left : List UInt8) (count : Nat)
    (fault : Option String)
    : KeyPlace :=
  let grown := place.grow (left.take count)
  match fault with
  | some reason => grown.enter process (.refused (.write reason))
  | none =>
      if left.drop count = [] then grown.enter process (.loaded key)
      else grown.enter process (.filling key (left.drop count))

/-- A file that others could read is not trusted. -/
def look (place : KeyPlace) (process : Nat) (file : KeyFile) : KeyPlace :=
  if file.mode &&& 0o77 = 0 then place.enter process .reading
  else place.enter process (.refused .readableByOthers)

def read (place : KeyPlace) (process : Nat) (file : KeyFile) : KeyPlace :=
  match readKey file.bytes with
  | .ok key => place.enter process (.loaded key)
  | .error why => place.enter process (.refused why)

def step (place : KeyPlace) : KeyEvent → KeyPlace
  | .create process fresh fault =>
      if (place.loaders process).busy then place
      else
        match fault with
        | some reason => place.enter process (.refused (.create reason))
        | none => place.create process fresh
  | .write process count fault =>
      match place.loaders process with
      | .filling key left => place.write process key left count fault
      | _ => place
  | .look process fault =>
      match place.loaders process, place.file, fault with
      | .looking, some file, none => place.look process file
      | .looking, _, some reason => place.enter process (.refused (.metadata reason))
      | _, _, _ => place
  | .read process fault =>
      match place.loaders process, place.file, fault with
      | .reading, some file, none => place.read process file
      | .reading, _, some reason => place.enter process (.refused (.read reason))
      | _, _, _ => place
  | .die process => place.enter process .idle
  | .chmod mode => { place with file := place.file.map fun file => { file with mode } }

def run (place : KeyPlace) (events : List KeyEvent) : KeyPlace := events.foldl step place

theorem run_append (place : KeyPlace) (first second : List KeyEvent)
    : place.run (first ++ second) = (place.run first).run second :=
  List.foldl_append

end KeyPlace

/-- Text of one byte a character is cut between characters, by induction on the text. -/
theorem take_encode {text : List Char} (single : ∀ char ∈ text, char.utf8Size = 1) (count : Nat)
    : (Utf8.encode text).take count = Utf8.encode (text.take count)
      ∧ (Utf8.encode text).length = text.length := by
  induction text generalizing count with
  | nil => simp
  | cons char text ih =>
      obtain ⟨byte, written⟩ := List.length_eq_one_iff.mp
        ((String.length_utf8EncodeChar char).trans (single char List.mem_cons_self))
      have rest := ih fun other member => single other (List.mem_cons_of_mem _ member)
      cases count with
      | zero => simp [Utf8.encode_cons, written, (rest 0).2]
      | succ count => simp [Utf8.encode_cons, written, (rest count).1, (rest count).2]

theorem encode_single (bytes : List UInt8) : ∀ char ∈ Base64.encode bytes, char.utf8Size = 1 :=
  fun _ member => (Base64.encode_plain member).1

theorem length_keyBytes (key : SecretKey) : (keyBytes key).length = 44 := by
  rw [keyBytes, (take_encode (encode_single key.val) 0).2, Base64.length_encode, key.property]

/-- Text without white characters is not trimmed. -/
theorem trim_plain {text : List Char} (plain : ∀ char ∈ text, Base64.Plain char)
    : Text.trim text = text := by
  have dark : ∀ char ∈ text, ¬Text.isWhitespace char = true := fun char member =>
    Bool.not_eq_true _ ▸ (plain char member).2
  have front : text.dropWhile Text.isWhitespace = text :=
    List.dropWhile_eq_self_iff.mpr fun some => dark _ (List.getElem_mem some)
  rw [Text.trim, front, List.rdropWhile_eq_self_iff]
  exact fun some => dark _ (List.getLast_mem some)

/-- What a part of a written key is read as. -/
theorem readKey_take (key : SecretKey) (count : Nat)
    : readKey ((keyBytes key).take count) = decodeKey ((Base64.encode key.val).take count) := by
  have plain : ∀ char ∈ (Base64.encode key.val).take count, Base64.Plain char :=
    fun char member => Base64.encode_plain (List.mem_of_mem_take member)
  rw [readKey, keyBytes, (take_encode (encode_single key.val) count).1, Utf8.decode_encode]
  exact congrArg decodeKey (trim_plain plain)

theorem readKey_keyBytes (key : SecretKey) : readKey (keyBytes key) = .ok key := by
  have whole := readKey_take key (keyBytes key).length
  have all : (Base64.encode key.val).take (keyBytes key).length = Base64.encode key.val := by
    rw [List.take_of_length_le]
    exact (take_encode (encode_single key.val) 0).2.ge
  rw [List.take_length, all] at whole
  simp [whole, decodeKey, sized, key.property]

/-- Part of what is written for a key is no key: a group of it is missing. -/
theorem readKey_part (key other : SecretKey) {count : Nat} (short : count < (keyBytes key).length)
    : readKey ((keyBytes key).take count) ≠ .ok other := by
  rw [readKey_take, decodeKey]
  cases read : Base64.decode ((Base64.encode key.val).take count) with
  | none =>
      intro same
      cases same
  | some bytes =>
      obtain ⟨groups, length, bounded⟩ := Base64.length_of_decode read
      rw [List.length_take] at length
      rw [length_keyBytes] at short
      have few : bytes.length ≠ 32 := by omega
      simp [sized, few]

end VerticalAI.Store
