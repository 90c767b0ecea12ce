import BoostLearn.Core.Relay
import BoostLearn.Model.AsyncServerUseProtobuf.Server
import BoostLearn.Model.Coroutine.Echo
import BoostLearn.Model.SyncServer.Session
import BoostLearn.Model.Websocket.WebSocketServer
import BoostLearn.Soundness.AsycApi.PartialWrites
import BoostLearn.Soundness.AsycApi.Reading
import BoostLearn.Soundness.AsycApi.Writing
import BoostLearn.Soundness.AsyncServer.Accesses
import BoostLearn.Soundness.AsyncServer.Hearing
import BoostLearn.Soundness.AsyncServer.Program
import BoostLearn.Soundness.AsyncServer.Registration
import BoostLearn.Soundness.AsyncServer.RoundTrip
import BoostLearn.Soundness.AsyncServer.Sending
import BoostLearn.Soundness.AsyncServerUseProtobuf.Exchange
import BoostLearn.Soundness.AsyncServerUseProtobuf.Replies
import BoostLearn.Soundness.AsyncServerUseProtobuf.Server
import BoostLearn.Soundness.BeastHttpServer.Counting
import BoostLearn.Soundness.BeastHttpServer.Email
import BoostLearn.Soundness.Capacity
import BoostLearn.Soundness.Coroutine.Echo
import BoostLearn.Soundness.CoroutineService.Cleanup
import BoostLearn.Soundness.CoroutineService.Clients
import BoostLearn.Soundness.CoroutineService.Endurance
import BoostLearn.Soundness.CoroutineService.Feeding
import BoostLearn.Soundness.CoroutineService.Progress
import BoostLearn.Soundness.CoroutineService.Reading
import BoostLearn.Soundness.CoroutineService.Sending
import BoostLearn.Soundness.LogicSystem.Reply
import BoostLearn.Soundness.LogicSystem.Shutdown
import BoostLearn.Soundness.LogicSystem.Survival
import BoostLearn.Soundness.ProtobufDemo.Book
import BoostLearn.Soundness.Queueing
import BoostLearn.Soundness.SyncServer.Exchange
import BoostLearn.Soundness.Uncut
import BoostLearn.Soundness.Websocket.Echo
import BoostLearn.Soundness.Websocket.Silence
