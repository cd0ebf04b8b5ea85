import Mathlib.Data.List.DropRight
import MoshClient.Library.Words
import MoshClient.Bootstrap.Command

namespace MoshModel

structure MoshBootstrap where
  serverIp : Option Text
  port : UInt16
  key : Text
deriving DecidableEq

inductive MoshBootstrapError where
  | noConnect (output : Text)
  | badConnect (line : Text)
  | badConnection (line : Text)
deriving DecidableEq

def MoshBootstrapError.message : MoshBootstrapError → Text
  | .noConnect output => "no MOSH CONNECT line (is mosh ≥ 1.4 installed on the server?): ".toList ++ output
  | .badConnect line => "bad MOSH CONNECT line: ".toList ++ line
  | .badConnection line => "bad MOSH SSH_CONNECTION line: ".toList ++ line

/-- Unicode's `White_Space`, by which the standard library splits. -/
def isWhitespace (c : Char) : Bool :=
  (0x9 ≤ c.toNat && c.toNat ≤ 0xd) || c.toNat = 0x20 || c.toNat = 0x85 || c.toNat = 0xa0 || c.toNat = 0x1680 ||
    (0x2000 ≤ c.toNat && c.toNat ≤ 0x200a) || c.toNat = 0x2028 || c.toNat = 0x2029 || c.toNat = 0x202f ||
    c.toNat = 0x205f || c.toNat = 0x3000

def splitWhitespace (line : Text) : List Text := Words.splitWords isWhitespace line

def withoutCr (line : Text) : Text := if line.getLast? = some '\r' then line.dropLast else line

/-- `str::lines`: the last line needs no newline, and then keeps its carriage return. -/
def linesFrom (line : Text) : Text → List Text
  | [] => if line = [] then [] else [line]
  | c :: rest => if c = '\n' then withoutCr line :: linesFrom [] rest else linesFrom (line ++ [c]) rest

def lines (output : Text) : List Text := linesFrom [] output

def trimEndCr (line : Text) : Text := line.rdropWhile (· = '\r')

def parseDigits (value : Nat) : Text → Option UInt16
  | [] => some (UInt16.ofNat value)
  | c :: rest =>
    if c.isDigit then
      let next := value * 10 + (c.toNat - '0'.toNat)
      if next ≤ 65535 then parseDigits next rest else none
    else none

/-- `str::parse::<u16>`. -/
def parseU16 (word : Text) : Option UInt16 :=
  match word with
  | [] => none
  | ['+'] => none
  | '+' :: digits => parseDigits 0 digits
  | digits => parseDigits 0 digits

def utf8 (text : Text) : List UInt8 := text.flatMap String.utf8EncodeChar

def isKeyByte (b : UInt8) : Bool :=
  (0x30 ≤ b && b ≤ 0x39) || (0x41 ≤ b && b ≤ 0x5a) || (0x61 ≤ b && b ≤ 0x7a) || b = 0x2f || b = 0x2b

def connectionLead : Text := "MOSH SSH_CONNECTION ".toList

def connectLead : Text := "MOSH CONNECT ".toList

def parseConnect (line : Text) : Except MoshBootstrapError MoshBootstrap :=
  match splitWhitespace line with
  | [_, _, port, key] =>
    match parseU16 port with
    | none => .error (.badConnect line)
    | some port =>
      if (utf8 key).length ≠ 22 || !(utf8 key).all isKeyByte then .error (.badConnect line)
      else .ok { serverIp := none, port := port, key := key }
  | _ => .error (.badConnect line)

structure Scan where
  serverIp : Option Text
  bootstrap : Option MoshBootstrap
  informational : List Text

def Scan.start : Scan := { serverIp := none, bootstrap := none, informational := [] }

def Scan.line (scan : Scan) (line : Text) : Except MoshBootstrapError Scan :=
  let line := trimEndCr line
  match connectionLead.isPrefixOf? line with
  | some rest =>
    match splitWhitespace rest with
    | [_, _, serverIp, _] =>
      if scan.serverIp.isSome then .error (.badConnection "attempt to redefine MOSH SSH_CONNECTION".toList)
      else .ok { scan with serverIp := some serverIp }
    | _ => .error (.badConnection line)
  | none =>
    if connectLead.isPrefixOf line then
      match scan.bootstrap with
      | some _ => .ok scan
      | none =>
        match parseConnect line with
        | .error e => .error e
        | .ok bootstrap => .ok { scan with bootstrap := some bootstrap }
    else .ok { scan with informational := scan.informational ++ [line] }

def Scan.lines (scan : Scan) : List Text → Except MoshBootstrapError Scan
  | [] => .ok scan
  | line :: rest =>
    match scan.line line with
    | .error e => .error e
    | .ok scan => scan.lines rest

def outputTail (output : Text) : Text :=
  if 400 < output.length then '…' :: (output.reverse.take 400).reverse else output

def parseMoshBootstrap (output : Text) : Except MoshBootstrapError MoshBootstrap :=
  match Scan.start.lines (lines output) with
  | .error e => .error e
  | .ok scan =>
    match scan.bootstrap with
    | some parsed => .ok { parsed with serverIp := scan.serverIp }
    | none => .error (.noConnect (outputTail ("\n".toList.intercalate scan.informational)))

end MoshModel
