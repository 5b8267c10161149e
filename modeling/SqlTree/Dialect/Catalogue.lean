/-
The dialects that the library knows, and the names they go by.
-/
import SqlTree.Dialect.Limit

namespace SqlTree.Dialect

def scaled (word : String) (p s : UInt8) : String :=
  word ++ "(" ++ Decimal.ofNat p.toNat ++ ", " ++ Decimal.ofNat s.toNat ++ ")"

def standardBuiltins : BuiltinSpelling :=
  { currentDate := "CURRENT_DATE"
    currentTimestamp := "CURRENT_TIMESTAMP"
    lastId := .constant "IDENTITY_VAL_LOCAL()"
    nextId := .phrase "NEXT VALUE FOR" }

def standardConcat : ConcatSpelling := ⟨"", " || ", ""⟩

def ansiType : DataType → Option String
  | .bool => some "BOOLEAN"
  | .smallInt => some "SMALLINT"
  | .int => some "INTEGER"
  | .bigInt => some "BIGINT"
  | .real => some "REAL"
  | .double => some "DOUBLE PRECISION"
  | .decimal p s => some (scaled "DECIMAL" p s)
  | .char n => some (DataType.sized "CHAR" n)
  | .varChar n => some (DataType.sized "VARCHAR" n)
  | .text => some "CLOB"
  | .binary n => some (DataType.sized "BINARY" n)
  | .varBinary n => some (DataType.sized "VARBINARY" n)
  | .blob => some "BLOB"
  | .date => some "DATE"
  | .time => some "TIME"
  | .timestamp => some "TIMESTAMP"
  | .guid => none

/-- standard SQL, without row limits and existence checks -/
def ansi : Dialect :=
  { name := "ansi"
    openQuote := '"'
    closeQuote := '"'
    params := .positional
    caps := ⟨false, false, true, false, true, true⟩
    tableAliasAs := true
    dual := none
    typeName := ansiType
    builtins := standardBuiltins
    concat := standardConcat
    hooks := .limitClause
    scripts := .sequence
    calls := .call }

/-- the type names of PostgreSQL, which has one type for all bytes -/
def postgresType : DataType → Option String
  | .decimal p s => some (scaled "NUMERIC" p s)
  | .text => some "TEXT"
  | .binary _ | .varBinary _ | .blob => some "BYTEA"
  | .guid => some "UUID"
  | t => ansiType t

def postgres : Dialect :=
  { ansi with
    name := "postgres"
    params := .numbered '$'
    caps := ⟨true, true, true, true, true, true⟩
    typeName := postgresType
    builtins :=
      { standardBuiltins with
        lastId := .ofSequence (some "LASTVAL()") (.literal "CURRVAL")
        nextId := .literal "NEXTVAL" } }

/-- the type names of MySQL; beyond 65535 characters or bytes the unbounded types take over -/
def mysqlType : DataType → Option String
  | .bool => some "TINYINT(1)"
  | .int => some "INT"
  | .real => some "FLOAT"
  | .double => some "DOUBLE"
  | .varChar n => some (if n > 65535 then "LONGTEXT" else DataType.sized "VARCHAR" n)
  | .text => some "LONGTEXT"
  | .varBinary n => some (if n > 65535 then "LONGBLOB" else DataType.sized "VARBINARY" n)
  | .blob => some "LONGBLOB"
  | .timestamp => some "DATETIME"
  | .guid => some "CHAR(36)"
  | t => ansiType t

def mysql : Dialect :=
  { ansi with
    name := "mysql"
    openQuote := Char.ofNat 0x60
    closeQuote := Char.ofNat 0x60
    caps := ⟨true, true, true, true, false, true⟩
    typeName := mysqlType
    builtins := { standardBuiltins with lastId := .constant "LAST_INSERT_ID()" }
    concat := ⟨"CONCAT(", ", ", ")"⟩ }

/-- the type names of SQLite, which are storage classes without sizes -/
def sqliteType : DataType → Option String
  | .bool | .smallInt | .int | .bigInt => some "INTEGER"
  | .real | .double => some "REAL"
  | .decimal _ _ => some "NUMERIC"
  | .char _ | .varChar _ | .text | .guid => some "TEXT"
  | .binary _ | .varBinary _ | .blob => some "BLOB"
  | .date | .time | .timestamp => some "TEXT"

def sqlite : Dialect :=
  { ansi with
    name := "sqlite"
    caps := ⟨true, true, false, true, false, true⟩
    typeName := sqliteType
    builtins := { standardBuiltins with lastId := .constant "last_insert_rowid()" } }

/-- the type names of SQL Server; beyond 8000 characters or bytes sizes are unbounded -/
def sqlServerType : DataType → Option String
  | .bool => some "BIT"
  | .int => some "INT"
  | .double => some "FLOAT"
  | .varChar n => some (if n > 8000 then "VARCHAR(MAX)" else DataType.sized "VARCHAR" n)
  | .text => some "VARCHAR(MAX)"
  | .varBinary n => some (if n > 8000 then "VARBINARY(MAX)" else DataType.sized "VARBINARY" n)
  | .blob => some "VARBINARY(MAX)"
  | .timestamp => some "DATETIME2"
  | .guid => some "UNIQUEIDENTIFIER"
  | t => ansiType t

def sqlServer : Dialect :=
  { ansi with
    name := "sqlserver"
    openQuote := '['
    closeQuote := ']'
    params := .named '@' true
    caps := ⟨true, true, true, false, true, false⟩
    typeName := sqlServerType
    builtins :=
      { standardBuiltins with
        currentDate := "CAST(GETDATE() AS DATE)"
        lastId := .constant "SCOPE_IDENTITY()" }
    concat := ⟨"", " + ", ""⟩
    hooks := .topOrFetch
    calls := .exec }

/-- the type names of Oracle, which has no time of day; long characters and bytes have types of their own -/
def oracleType : DataType → Option String
  | .bool => some "NUMBER(1)"
  | .smallInt => some "NUMBER(5)"
  | .int => some "NUMBER(10)"
  | .bigInt => some "NUMBER(19)"
  | .real => some "BINARY_FLOAT"
  | .double => some "BINARY_DOUBLE"
  | .decimal p s => some (scaled "NUMBER" p s)
  | .char n => some (DataType.sized "CHAR" n)
  | .varChar n => some (if n > 4000 then "CLOB" else DataType.sized "VARCHAR2" n)
  | .text => some "CLOB"
  | .binary n | .varBinary n => some (if n > 2000 then "BLOB" else DataType.sized "RAW" n)
  | .blob => some "BLOB"
  | .date => some "DATE"
  | .time => none
  | .timestamp => some "TIMESTAMP"
  | .guid => some "RAW(16)"

def oracle : Dialect :=
  { ansi with
    name := "oracle"
    params := .named ':' false
    caps := ⟨true, true, true, false, true, false⟩
    tableAliasAs := false
    dual := some "DUAL"
    typeName := oracleType
    builtins :=
      { currentDate := "TRUNC(SYSDATE)"
        currentTimestamp := "SYSTIMESTAMP"
        lastId := .ofSequence none (.member "CURRVAL")
        nextId := .member "NEXTVAL" }
    hooks := .rowNumbers
    scripts := .block
    calls := .block }

def all : List Dialect := [ansi, postgres, mysql, sqlite, sqlServer, oracle]

/-- the dialect that goes by a name, in any case -/
def ofName? (name : String) : Option Dialect :=
  match name.toLower with
  | "ansi" | "sql" => some ansi
  | "postgres" | "postgresql" | "pg" => some postgres
  | "mysql" | "mariadb" => some mysql
  | "sqlite" | "sqlite3" => some sqlite
  | "sqlserver" | "mssql" | "tsql" => some sqlServer
  | "oracle" => some oracle
  | _ => none

end SqlTree.Dialect
