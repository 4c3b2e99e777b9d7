import SmtpdTables.Strings
import SmtpdTables.Records
import SmtpdTables.Decoders
import SmtpdTables.Static
import SmtpdTables.Db
import SmtpdTables.Backends
import SmtpdTables.Update
import SmtpdTables.Parser
import SmtpdTables.Catalog
