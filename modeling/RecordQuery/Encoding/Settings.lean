import RecordQuery.Calendar.Reader
import RecordQuery.Encoding.Basic
import RecordQuery.Engine

namespace RecordQuery

open Encoded (defaulted? needed? parts?)

def Uuid.decode? (data : Encoded) : Option Uuid :=
  data.text?.bind fun text => Uuid.read? text.toList

namespace Caller

def encode (caller : Caller) : Encoded :=
  .fields [("user_id", .text caller.userId.text),
    ("business_unit_id", .text caller.businessUnitId.text)]

def decode? (data : Encoded) : Option Caller := do
  match ← parts? ["user_id", "business_unit_id"] data with
  | [user?, unit?] => return ⟨← needed? Uuid.decode? user?, ← needed? Uuid.decode? unit?⟩
  | _ => none

end Caller

namespace Instant

def decode? (data : Encoded) : Option Instant :=
  data.text?.bind fun text => Calendar.readRelaxed? text.toList

def decodeOption? : Encoded → Option (Option Instant)
  | .null => some none
  | data => (decode? data).map some

end Instant

namespace Settings

def encode (settings : Settings) : Encoded :=
  .fields [("caller", settings.caller.encode),
    ("fixed_now", .ofOption (settings.fixedNow?.map fun now => .text now.zuluText)),
    ("default_page_size", .ofNat settings.pageSize)]

def decode? (data : Encoded) : Option Settings := do
  match ← parts? ["caller", "fixed_now", "default_page_size"] data with
  | [caller?, now?, size?] =>
    return ⟨← defaulted? default.caller Caller.decode? caller?,
      ← defaulted? default.fixedNow? Instant.decodeOption? now?,
      ← defaulted? default.pageSize (Encoded.nat? limit64) size?⟩
  | _ => none

end Settings

namespace FiscalSettings

def encode (settings : FiscalSettings) : Encoded :=
  .fields [("start_month", .ofNat settings.startMonth), ("start_day", .ofNat settings.startDay),
    ("template", .text settings.template.name)]

def decode? (data : Encoded) : Option FiscalSettings := do
  match ← parts? ["start_month", "start_day", "template"] data with
  | [month?, day?, template?] =>
    return ⟨← defaulted? default.startMonth (Encoded.nat? limit32) month?,
      ← defaulted? default.startDay (Encoded.nat? limit32) day?,
      ← defaulted? default.template (Encoded.choice? FiscalTemplate.ofName?) template?⟩
  | _ => none

end FiscalSettings

end RecordQuery
