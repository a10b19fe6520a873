/-! Text that is signed: fields in a fixed order with one separator between them. -/
namespace PaymentTrust

def fieldSeparator : String := "|"

def joinFields (fields : List String) : String :=
  fieldSeparator.intercalate fields

def domainSeparated (domain nonce purpose payload : String) : String :=
  joinFields [domain, nonce, purpose, payload]

end PaymentTrust
