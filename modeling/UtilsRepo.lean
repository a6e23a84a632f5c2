import UtilsRepo.Lib.Scan
import UtilsRepo.Lib.Regex
import UtilsRepo.Lib.Fallible
import UtilsRepo.Lib.Path
import UtilsRepo.Lib.FileTree
import UtilsRepo.Lib.Base64
import UtilsRepo.Lib.Json
import UtilsRepo.Lib.MapWrites
import UtilsRepo.Lib.TimedRun
import UtilsRepo.Lib.Interleaving
import UtilsRepo.Java.Exception
import UtilsRepo.Java.Platform
import UtilsRepo.Java.Object
import UtilsRepo.Jwt.JWTCreator
import UtilsRepo.Jwt.JWTVerifier
import UtilsRepo.Jwt.JwtUtil
import UtilsRepo.Jwt.SignedToken
import UtilsRepo.Jwt.WrittenClaims
import UtilsRepo.Jwt.VerifiedToken
import UtilsRepo.Jwt.CompactPlatform
import UtilsRepo.Jwt.Overloads
import UtilsRepo.Jwt.Lifetime
import UtilsRepo.Jwt.OwnClaims
import UtilsRepo.Jwt.CreateVerify
import UtilsRepo.Jwt.Identity
import UtilsRepo.Redis.Store
import UtilsRepo.Redis.RedisTemplate
import UtilsRepo.Redis.RedisUtil
import UtilsRepo.Redis.ServerCalls
import UtilsRepo.Redis.Writes
import UtilsRepo.Redis.ReportedSuccess
import UtilsRepo.Redis.ReportedFailure
import UtilsRepo.Redis.Transaction
import UtilsRepo.Serialization.JavaFile
import UtilsRepo.Serialization.SerializationUtil
import UtilsRepo.Serialization.Sanitize
import UtilsRepo.Serialization.OnePass
import UtilsRepo.Serialization.Confinement
import UtilsRepo.Serialization.RoundTrip
import UtilsRepo.Serialization.Steps
import UtilsRepo.Serialization.GeneratedNames
import UtilsRepo.Serialization.HarmlessPath
import UtilsRepo.Auth.Entity
import UtilsRepo.Auth.Response
import UtilsRepo.Auth.JwtLoginSuccessHandler
import UtilsRepo.Auth.JwtTokenFilter
import UtilsRepo.Auth.DetailToken
import UtilsRepo.Auth.LoginUsable
import UtilsRepo.Auth.BearerHeader
import UtilsRepo.Auth.Login
import UtilsRepo.Auth.ServerRun
import UtilsRepo.Auth.LoginChecks
import UtilsRepo.Auth.PasswordErasure
import UtilsRepo.Auth.LoginRequired
import UtilsRepo.Auth.AccessWindow
import UtilsRepo.Lib.Broker
import UtilsRepo.Mq.RabbitMQConfig
import UtilsRepo.Mq.NothingLost
import UtilsRepo.Mq.WorkedOff
import UtilsRepo.Mq.MessageBroker
import UtilsRepo.Redis.Keyspace
import UtilsRepo.Redis.SharedServer
import UtilsRepo.Redis.ReadersAgree
import UtilsRepo.Redis.Expiry
import UtilsRepo.Serialization.Archive
import UtilsRepo.Jwt.KeyRotation
import UtilsRepo.Jwt.SharedSecret
import UtilsRepo.Mailing.MailUtil
import UtilsRepo.Mailing.Sessions
import UtilsRepo.Mailing.Sendable
