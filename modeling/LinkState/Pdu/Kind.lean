import LinkState.Level

/-!
# Types of protocol data units

Each type has a number, a name and the length of its fixed header.  Hello
PDUs are known by their number, but their content is the business of
adjacency management.
-/

namespace LinkState

inductive PduType
  | helloLan1
  | helloLan2
  | helloPointToPoint
  | lsp1
  | lsp2
  | csnp1
  | csnp2
  | psnp1
  | psnp2
  deriving DecidableEq, Repr

namespace PduType

def all : List PduType :=
  [helloLan1, helloLan2, helloPointToPoint, lsp1, lsp2, csnp1, csnp2, psnp1, psnp2]

def code : PduType → UInt8
  | helloLan1 => 15
  | helloLan2 => 16
  | helloPointToPoint => 17
  | lsp1 => 18
  | lsp2 => 20
  | csnp1 => 24
  | csnp2 => 25
  | psnp1 => 26
  | psnp2 => 27

def ofCode? (code : UInt8) : Option PduType :=
  all.find? fun kind => kind.code = code

def name : PduType → String
  | helloLan1 => "HelloLanL1"
  | helloLan2 => "HelloLanL2"
  | helloPointToPoint => "HelloP2P"
  | lsp1 => "LspL1"
  | lsp2 => "LspL2"
  | csnp1 => "CsnpL1"
  | csnp2 => "CsnpL2"
  | psnp1 => "PsnpL1"
  | psnp2 => "PsnpL2"

def ofName? (name : String) : Option PduType :=
  all.find? fun kind => kind.name = name

def headerLength : PduType → UInt8
  | helloLan1 | helloLan2 => 27
  | helloPointToPoint => 20
  | lsp1 | lsp2 => 27
  | csnp1 | csnp2 => 33
  | psnp1 | psnp2 => 17

def lsp : Level → PduType
  | .one => lsp1
  | .two => lsp2

def csnp : Level → PduType
  | .one => csnp1
  | .two => csnp2

def psnp : Level → PduType
  | .one => psnp1
  | .two => psnp2

end PduType

end LinkState
