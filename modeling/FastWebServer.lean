import FastWebServer.Library.Runs
import FastWebServer.Http.ResumeHeaders
import FastWebServer.Http.ParseURI
import FastWebServer.Util
import FastWebServer.Timer
import FastWebServer.Epoll
import FastWebServer.Http.Handlers
import FastWebServer.Http.ReadEffects
import FastWebServer.Http.ConnectEffects
import FastWebServer.Http.HandlerLog
import FastWebServer.PendingOutput
import FastWebServer.KeepAlive
import FastWebServer.Channel
import FastWebServer.EventLoop.FunctorQueue
import FastWebServer.EventLoop.QuitRequest
import FastWebServer.EventLoop.StartLoop
import FastWebServer.EventLoop.Delivery
import FastWebServer.EventLoop.Iteration
import FastWebServer.Server
import FastWebServer.LoopThread
import FastWebServer.Lifetimes
import FastWebServer.EpollInterest
import FastWebServer.Http.ResponseFraming
import FastWebServer.Http.AnalyzeRequest
import FastWebServer.Http.DocumentRoot
import FastWebServer.Http.PartialLine
import FastWebServer.Http.ReferenceLine
import FastWebServer.Http.WellFormedLine
import FastWebServer.Http.BlankLine
import FastWebServer.Http.HeaderInjection
import FastWebServer.Http.HeaderRoundTrip
import FastWebServer.Http.HeaderLanguage
import FastWebServer.Http.Pipelining
import FastWebServer.Nanolog.Nibbler
import FastWebServer.ThreadPool.Wakeups
import FastWebServer.ThreadPool.MutexDiscipline
import FastWebServer.ThreadPool.Joins
import FastWebServer.Log.Stop
import FastWebServer.Log.DroppedLines
import FastWebServer.Http.FreshAfterReset
import FastWebServer.Http.BodyLength
import FastWebServer.Http.HeadResponse
import FastWebServer.Timer.Deadline
import FastWebServer.Timer.Expiry
import FastWebServer.Timer.IdleConnections
import FastWebServer.Ownership
import FastWebServer.Timer.Activity
import FastWebServer.Closing
import FastWebServer.OneAnswer
import FastWebServer.Faults
import FastWebServer.Thread
import FastWebServer.Http.ErrorPage
import FastWebServer.Startup
import FastWebServer.LoopTurns
import FastWebServer.EpollRegistry
import FastWebServer.Util.FixedRead
import FastWebServer.Util.Drain
import FastWebServer.Http.OutputStream
import FastWebServer.Log.FormatInteger
import FastWebServer.Log.Logger
import FastWebServer.Log.Records
import FastWebServer.Log.ShortWrite
import FastWebServer.Nanolog.PackageSize
import FastWebServer.Nanolog.RoundTrip
import FastWebServer.Nanolog.HexDump
