import SheetPost.Calendar.Date
import SheetPost.Calendar.Moment
import SheetPost.Calendar.Rfc2822
import SheetPost.Calendar.Rfc3339
import SheetPost.Calendar.Zone
import SheetPost.Command.Arguments
import SheetPost.Command.ExportTable
import SheetPost.Command.Mailer
import SheetPost.Command.Outcome
import SheetPost.Config.Basic
import SheetPost.Config.ConnectionUrl
import SheetPost.Config.Reader
import SheetPost.Config.Validity
import SheetPost.Cron.Field
import SheetPost.Cron.Grammar
import SheetPost.Cron.Search
import SheetPost.Delivery.Run
import SheetPost.Delivery.Runner
import SheetPost.Delivery.Spec
import SheetPost.Mail.Address
import SheetPost.Mail.AddressList
import SheetPost.Mail.Base64
import SheetPost.Mail.Disposition
import SheetPost.Mail.EncodedWord
import SheetPost.Mail.Envelope
import SheetPost.Mail.Lines
import SheetPost.Mail.Mailbox
import SheetPost.Mail.Message
import SheetPost.Mail.QuotedPrintable
import SheetPost.Mail.QuotedString
import SheetPost.Main
import SheetPost.Net.DomainName
import SheetPost.Net.Ip
import SheetPost.Net.Punycode
import SheetPost.Pool.Basic
import SheetPost.Proofs.Calendar.Date
import SheetPost.Proofs.Calendar.Moment
import SheetPost.Proofs.Calendar.Rfc2822
import SheetPost.Proofs.Calendar.Zone
import SheetPost.Proofs.Command.ExportTable
import SheetPost.Proofs.Config.Account
import SheetPost.Proofs.Config.FirstFault
import SheetPost.Proofs.Config.Target
import SheetPost.Proofs.Config.Validity
import SheetPost.Proofs.Cron.Divided
import SheetPost.Proofs.Cron.Expression
import SheetPost.Proofs.Cron.Fields
import SheetPost.Proofs.Cron.First
import SheetPost.Proofs.Cron.Grammar
import SheetPost.Proofs.Cron.Numbers
import SheetPost.Proofs.Cron.Search
import SheetPost.Proofs.Cron.Trigger
import SheetPost.Proofs.Cron.Values
import SheetPost.Proofs.Delivery.Calls
import SheetPost.Proofs.Delivery.Counting
import SheetPost.Proofs.Delivery.Disclosure
import SheetPost.Proofs.Delivery.Pipeline
import SheetPost.Proofs.Delivery.Pools
import SheetPost.Proofs.Mail.Address
import SheetPost.Proofs.Mail.AddressList
import SheetPost.Proofs.Mail.Agreement
import SheetPost.Proofs.Mail.Base64
import SheetPost.Proofs.Mail.Base64Lines
import SheetPost.Proofs.Mail.Block
import SheetPost.Proofs.Mail.Boundary
import SheetPost.Proofs.Mail.Build
import SheetPost.Proofs.Mail.Disposition
import SheetPost.Proofs.Mail.Domain
import SheetPost.Proofs.Mail.EncodedWord
import SheetPost.Proofs.Mail.Entries
import SheetPost.Proofs.Mail.FileName
import SheetPost.Proofs.Mail.HeaderBlock
import SheetPost.Proofs.Mail.HeaderValue
import SheetPost.Proofs.Mail.LineBreaks
import SheetPost.Proofs.Mail.LineLengths
import SheetPost.Proofs.Mail.LineLimit
import SheetPost.Proofs.Mail.Lines
import SheetPost.Proofs.Mail.Mailbox
import SheetPost.Proofs.Mail.Parts
import SheetPost.Proofs.Mail.QuotedPrintable
import SheetPost.Proofs.Mail.Refusal
import SheetPost.Proofs.Mail.Reread
import SheetPost.Proofs.Mail.RoundTrip
import SheetPost.Proofs.Mail.Sections
import SheetPost.Proofs.Mail.SevenBit
import SheetPost.Proofs.Mail.WrittenLines
import SheetPost.Proofs.Net.DomainName
import SheetPost.Proofs.Net.Ip
import SheetPost.Proofs.Pool.Lifetime
import SheetPost.Proofs.Relation.Export
import SheetPost.Proofs.Schedule.DayItem
import SheetPost.Proofs.Schedule.Every
import SheetPost.Proofs.Schedule.Interval
import SheetPost.Proofs.Schedule.Later
import SheetPost.Proofs.Schedule.Next
import SheetPost.Proofs.Schedule.OutOfRange
import SheetPost.Proofs.Schedule.Parse
import SheetPost.Proofs.Schedule.Tokens
import SheetPost.Proofs.Schedule.Weekday
import SheetPost.Proofs.Sheet.CellName
import SheetPost.Proofs.Sheet.Escape
import SheetPost.Proofs.Sheet.Limits
import SheetPost.Proofs.Sheet.RoundTrip
import SheetPost.Proofs.Sheet.Runs
import SheetPost.Proofs.Sheet.SharedStrings
import SheetPost.Proofs.Sheet.Token
import SheetPost.Proofs.Sheet.Worksheet
import SheetPost.Proofs.Sqlite.Export
import SheetPost.Proofs.Sqlite.Number
import SheetPost.Proofs.Text.Letter
import SheetPost.Proofs.Text.Lossy
import SheetPost.Proofs.Text.Numeral
import SheetPost.Proofs.Text.Percent
import SheetPost.Proofs.Text.Search
import SheetPost.Proofs.Text.Trim
import SheetPost.Proofs.Text.Utf8
import SheetPost.Proofs.Text.Words
import SheetPost.Proofs.Trigger.Served
import SheetPost.Proofs.Trigger.Stop
import SheetPost.Proofs.Url.Escape
import SheetPost.Proofs.Url.Host
import SheetPost.Proofs.Url.Parts
import SheetPost.Proofs.Url.Path
import SheetPost.Proofs.Url.Reading
import SheetPost.Proofs.World.Act
import SheetPost.Relation.Export
import SheetPost.Relation.Reading
import SheetPost.Relation.Rows
import SheetPost.Schedule.Basic
import SheetPost.Schedule.Interval
import SheetPost.Schedule.Weekday
import SheetPost.Sheet.Archive
import SheetPost.Sheet.CellName
import SheetPost.Sheet.Cells
import SheetPost.Sheet.Document
import SheetPost.Sheet.SharedStrings
import SheetPost.Sheet.Theme
import SheetPost.Sheet.Token
import SheetPost.Sheet.Workbook
import SheetPost.Sheet.Worksheet
import SheetPost.Sheet.Xml
import SheetPost.Sqlite.Binary64
import SheetPost.Sqlite.Catalog
import SheetPost.Sqlite.Location
import SheetPost.Sqlite.Value
import SheetPost.Text.Blank
import SheetPost.Text.Fold
import SheetPost.Text.Letter
import SheetPost.Text.Numeral
import SheetPost.Text.Percent
import SheetPost.Text.Printable
import SheetPost.Text.Quoted
import SheetPost.Text.Ranges
import SheetPost.Text.Search
import SheetPost.Text.Utf8
import SheetPost.Trigger.Loop
import SheetPost.Url.Account
import SheetPost.Url.Basic
import SheetPost.Url.Host
import SheetPost.World.Act
import SheetPost.World.Basic
import SheetPost.World.Machine
import SheetPost.World.Script
import SheetPost.Yaml.Cursor
import SheetPost.Yaml.Node
import SheetPost.Yaml.Scalar
import SheetPost.Yaml.Token
