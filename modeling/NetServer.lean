import NetServer.Common.Crc
import NetServer.Common.DecodeText
import NetServer.Common.Fields
import NetServer.Config.Workers
import NetServer.Connection.Callback
import NetServer.Connection.Isolation
import NetServer.Http.Reparse
import NetServer.Log.LineBuffer
import NetServer.Log.Reserve
import NetServer.Log.Restart
import NetServer.Log.Ticks
import NetServer.Mysql.Flatten
import NetServer.Pool.Clients
import NetServer.Records.Agreement
import NetServer.Records.Queues
import NetServer.Records.Startup
import NetServer.Redis.Commands
import NetServer.Redis.ReaderRuns
import NetServer.Redis.Results
import NetServer.Request.ContentLength
import NetServer.Request.Verdict
