import ByteBasic.Machine.Encoding

/-!
# Program images

An image is the bytes of a program, laid out from address zero, each word with its high byte first.
An image of odd length reads as if a zero byte followed.
-/

namespace ByteBasic

/-- The bytes of a program, from address zero. -/
structure Image where
  bytes : List UInt8
  deriving DecidableEq

/-- The word made of two bytes. -/
def wordOfBytes (high low : UInt8) : UInt16 :=
  UInt16.ofNat (256 * high.toNat + low.toNat)

/-- The two bytes of a word, the high one first. -/
def bytesOfWord (word : UInt16) : List UInt8 :=
  [UInt8.ofNat (word.toNat / 256), word.toUInt8]

theorem wordOfBytes_bytesOfWord (word : UInt16) :
    wordOfBytes (UInt8.ofNat (word.toNat / 256)) word.toUInt8 = word := by
  apply UInt16.toNat_inj.1
  have := word.toNat_lt
  simp [wordOfBytes]
  omega

namespace Image

/-- The words of a list of bytes; a lone last byte is followed by zero. -/
def wordsOfBytes : List UInt8 → List UInt16
  | [] => []
  | [high] => [wordOfBytes high 0]
  | high :: low :: rest => wordOfBytes high low :: wordsOfBytes rest

def words (image : Image) : List UInt16 :=
  wordsOfBytes image.bytes

def ofWords (words : List UInt16) : Image :=
  ⟨words.flatMap bytesOfWord⟩

/-- Words laid out as bytes are read back. -/
theorem words_ofWords (words : List UInt16) : (ofWords words).words = words := by
  unfold ofWords Image.words
  induction words with
  | nil => rfl
  | cons word words ih =>
    simpa [bytesOfWord, wordsOfBytes, wordOfBytes_bytesOfWord] using ih

/-- The image of a list of instructions, unless one of them cannot be encoded. -/
def ofInstructions (instructions : List Instruction) : Except EncodeError Image := do
  let words ← instructions.mapM Instruction.encode
  return ofWords words

/-- What a file that holds the image contains: its bytes and nothing else. -/
def contents (image : Image) : List UInt8 :=
  image.bytes

/-- The image that a file of these contents holds. -/
def ofContents (contents : List UInt8) : Image :=
  ⟨contents⟩

theorem ofContents_contents (image : Image) : ofContents image.contents = image := rfl

def size (image : Image) : Nat :=
  image.bytes.length

def decode (image : Image) : List Instruction :=
  image.words.map Instruction.decode

/-- One line of a listing: the offset of a word, the word and its instruction. -/
def listingLine (offset : Nat) (word : UInt16) : String :=
  "i" ++ Hex.numeral 2 offset ++ " | 0x" ++ Hex.numeral 4 word.toNat ++ " | " ++
    (Instruction.decode word).text

/-- The listing of an image: one line to a word, each ended by a line feed. -/
def listing (image : Image) : String :=
  String.join (image.words.zipIdx.map fun (word, index) => listingLine (2 * index) word ++ "\n")

end Image

end ByteBasic
