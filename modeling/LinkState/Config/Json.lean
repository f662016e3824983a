import LinkState.Config
import LinkState.Json.Reader
import LinkState.Pdu.Json

/-!
# Configuration as JSON

Keys that are absent keep their defaults and unknown keys are skipped.  All
causes for which a configuration is refused are one: it is invalid.
-/

namespace LinkState

namespace LevelType

def toJson : LevelType → Json
  | one => .text "L1"
  | two => .text "L2"
  | all => .text "All"

def ofJson? (json : Json) : Option LevelType := do
  match ← json.toName? with
  | "L1" => some one
  | "L2" => some two
  | "All" => some all
  | _ => none

end LevelType

namespace Ipv4Network

def toJson (network : Ipv4Network) : Json :=
  .text network.text

def ofJson? (json : Json) : Option Ipv4Network := do
  ofText? (← json.toText?)

end Ipv4Network

namespace Ipv6Network

def toJson (network : Ipv6Network) : Json :=
  .text network.text

def ofJson? (json : Json) : Option Ipv6Network := do
  ofText? (← json.toText?)

end Ipv6Network

namespace Advertisement

/-- What a system advertises, with all keys. -/
def toJson (advertised : Advertisement) : Json :=
  Json.record [
    ("hostname", Json.option Json.text advertised.hostname),
    ("area-addrs", Json.list Tlv.areaToJson advertised.areas),
    ("ipv4-addrs", Json.list Ipv4Network.toJson advertised.ipv4),
    ("ipv6-addrs", Json.list Ipv6Network.toJson advertised.ipv6),
    ("overload-status", .bool advertised.overloaded),
    ("attached", .bool advertised.attached)]

/-- Reads what a system advertises; by default it is nothing. -/
def ofJson? (json : Json) : Option Advertisement := do
  match ← json.slots? ["hostname", "area-addrs", "ipv4-addrs", "ipv6-addrs", "overload-status",
    "attached"] with
  | [hostname, areas, ipv4, ipv6, overloaded, attached] =>
      return {
        hostname := ← hostname.withDefault none (Json.toOption? Json.toText?)
        areas := ← areas.withDefault [] (Json.toList? Tlv.areaOfJson?)
        ipv4 := ← ipv4.withDefault [] (Json.toList? Ipv4Network.ofJson?)
        ipv6 := ← ipv6.withDefault [] (Json.toList? Ipv6Network.ofJson?)
        overloaded := ← overloaded.withDefault false Json.toBool?
        attached := ← attached.withDefault false Json.toBool? }
  | _ => none

def parse? (text : String) : Option Advertisement := do
  ofJson? (← Json.parse? text)

end Advertisement

namespace Config

/-- A configuration, with all keys. -/
def toJson (config : Config) : Json :=
  Json.record [
    ("system-id", config.system.toJson),
    ("level-type", config.levels.toJson),
    ("hostname", Json.option Json.text config.advertised.hostname),
    ("area-addrs", Json.list Tlv.areaToJson config.advertised.areas),
    ("ipv4-addrs", Json.list Ipv4Network.toJson config.advertised.ipv4),
    ("ipv6-addrs", Json.list Ipv6Network.toJson config.advertised.ipv6),
    ("overload-status", .bool config.advertised.overloaded),
    ("attached", .bool config.advertised.attached),
    ("lsp-mtu", .natural config.mtu.toNat),
    ("lsp-lifetime", .natural config.lifetime.toNat),
    ("zero-age-lifetime", .natural config.zeroAge.toNat),
    ("lsp-gen-delay", .natural config.generationDelay.toNat),
    ("pseudonode-gen-delay", .natural config.pseudonodeDelay.toNat),
    ("lsp-min-gen-interval", .natural config.generationInterval.toNat),
    ("placeholder-lifetime", .natural config.placeholderLifetime.toNat),
    ("purge-originator", .bool config.purgeOriginator)]

/-- Reads a configuration; by default nothing is set. -/
def ofJson? (json : Json) : Option Config := do
  match ← json.slots? ["system-id", "level-type", "hostname", "area-addrs", "ipv4-addrs",
    "ipv6-addrs", "overload-status", "attached", "lsp-mtu", "lsp-lifetime", "zero-age-lifetime",
    "lsp-gen-delay", "pseudonode-gen-delay", "lsp-min-gen-interval", "placeholder-lifetime",
    "purge-originator"] with
  | [system, levels, hostname, areas, ipv4, ipv6, overloaded, attached, mtu, lifetime, zeroAge,
      generationDelay, pseudonodeDelay, generationInterval, placeholderLifetime,
      purgeOriginator] =>
      return {
        system := ← system.withDefault default.system SystemId.ofJson?
        levels := ← levels.withDefault default.levels LevelType.ofJson?
        advertised := {
          hostname := ← hostname.withDefault none (Json.toOption? Json.toText?)
          areas := ← areas.withDefault [] (Json.toList? Tlv.areaOfJson?)
          ipv4 := ← ipv4.withDefault [] (Json.toList? Ipv4Network.ofJson?)
          ipv6 := ← ipv6.withDefault [] (Json.toList? Ipv6Network.ofJson?)
          overloaded := ← overloaded.withDefault false Json.toBool?
          attached := ← attached.withDefault false Json.toBool? }
        mtu := ← mtu.withDefault default.mtu Json.toU16?
        lifetime := ← lifetime.withDefault default.lifetime Json.toU16?
        zeroAge := ← zeroAge.withDefault default.zeroAge Json.toU16?
        generationDelay := ← generationDelay.withDefault default.generationDelay Json.toU16?
        pseudonodeDelay := ← pseudonodeDelay.withDefault default.pseudonodeDelay Json.toU16?
        generationInterval :=
          ← generationInterval.withDefault default.generationInterval Json.toU16?
        placeholderLifetime :=
          ← placeholderLifetime.withDefault default.placeholderLifetime Json.toU16?
        purgeOriginator := ← purgeOriginator.withDefault default.purgeOriginator Json.toBool? }
  | _ => none

def parse? (text : String) : Option Config := do
  ofJson? (← Json.parse? text)

end Config

end LinkState
