import ContractCheck.Host.Basic

/-! # Fetching

Data is fetched by its address.  An address of the host's own files names a path, with percent signs
and two hexadecimal digits for bytes.  Any other address is asked for in the network.  An address
need not be a text, as it may have a string from an index in it.
-/
namespace ContractCheck.Fetch

/-- The value of a hexadecimal digit. -/
def hexDigit? (c : Char) : Option Nat :=
  if c.isDigit then some (c.toNat - 48)
  else if 'a' ≤ c ∧ c ≤ 'f' then some (c.toNat - 87)
  else if 'A' ≤ c ∧ c ≤ 'F' then some (c.toNat - 55)
  else none

/-- The bytes that a text with percent signs stands for. -/
def unescapeBytes : Text → Bytes
  | '%' :: a :: b :: r =>
    match hexDigit? a, hexDigit? b with
    | some x, some y => UInt8.ofNat (16 * x + y) :: unescapeBytes r
    | _, _ => 37 :: unescapeBytes (a :: b :: r)
  | c :: r => Utf8.encode [c] ++ unescapeBytes r
  | [] => []

/-- The text that a text with percent signs stands for. -/
def unescape (t : Text) : Text := Utf8.readLenient (unescapeBytes t)

/-- The scheme of an address, in lower case, and what follows its colon. -/
def schemeOf? (address : Text) : Option (Text × Text) :=
  match Text.cutFirst ':' address with
  | some (c :: cs, rest) =>
    if (c :: cs).contains '/' then none else some (Text.lower (c :: cs), rest)
  | _ => none

/-- The address without its last part after a number sign. -/
def withoutFragment (address : Points) : Points :=
  match address.reverse.dropWhile (· != .char '#') with
  | _ :: front => front.reverse
  | [] => address

/-- The host and the path of what follows the scheme. -/
def hostAndPath (rest : Text) : Text × Text :=
  match rest with
  | '/' :: '/' :: r =>
    let host := r.takeWhile fun c => c != '/' && c != '?' && c != '#'
    let path := r.drop host.length
    (host, if path.isEmpty || path.head? == some '/' then path else '/' :: path)
  | r => ([], r)

/-- The scheme of files. -/
def fileScheme : Text := "file".toList

/-- Whether a path behind the name of a host looks like another host. -/
def looksForeign (host path : Text) : Bool :=
  !host.isEmpty && host != "localhost".toList && Text.startsWith path "//".toList &&
    !Text.startsWith path "///".toList

/-- The file of an address on a host.  The path is looked at before the host is. -/
def readOn (host path : Text) : Action Bytes := do
  let file := unescape path
  if looksForeign host path then throw .unreachable
  else if file.contains '\x00' then throw (.file .unusablePath file)
  else if host.isEmpty || (← get).network.own host then Action.readFile file
  else throw .unreachable

/-- What the network answers about an address. -/
def ask (address : Text) : Action Bytes := do
  match (← get).network.answer address with
  | .data bytes => pure bytes
  | .unreachable => throw .unreachable
  | .garbled => throw .garbled
  | .refused => throw (.badValue "the address cannot be sent".toList)

/-- Whether a file can have a name: a half of a pair of surrogates may stand for a byte. -/
def isName (name : Points) : Bool := name.all fun p => p.char?.isSome || p.isByte

/-- What comes of asking for the file of an address that is no text.  No file has such a name. -/
def readHalved (address : Points) (host path : Text) : Action Bytes :=
  if looksForeign host path then throw .unreachable
  else if !isName address then throw .unencodable
  else if (unescape path).contains '\x00' then throw (.file .unusablePath (unescape path))
  else throw .unreachable

/-- The data at an address.  The network is not asked with an address that is no text. -/
def read (address : Points) : Action Bytes :=
  let front := withoutFragment address
  match schemeOf? front.shown with
  | none => throw (.badValue ("unknown url type: ".toList ++ address.quote))
  | some (scheme, rest) =>
    let (host, path) := hostAndPath rest
    match front.text? with
    | some a => if scheme = fileScheme then readOn (unescape host) path else ask a
    | none =>
      if scheme = fileScheme then readHalved front (unescape host) path else throw .unencodable

end ContractCheck.Fetch
