import SvgJsx.Text.Basic

/-! The page of the playground and the script it loads. The script sends the whole input on every
edit and shows what comes back. -/

namespace SvgJsx.Playground
open Text

def pageHtml : Text := "<!DOCTYPE html>
<html lang=\"en\">
<head>
  <meta charset=\"utf-8\">
  <meta name=\"viewport\" content=\"width=device-width, initial-scale=1\">
  <title>jsxify</title>
  <style>
    body \x7b font-family: system-ui, sans-serif; max-width: 1100px; margin: 2rem auto; padding: 0 1rem; \x7d
    .panes \x7b display: grid; grid-template-columns: 1fr 1fr; gap: 1.5rem; \x7d
    .bar \x7b display: flex; justify-content: space-between; align-items: center; \x7d
    textarea \x7b width: 100%; height: 500px; font-family: ui-monospace, monospace; box-sizing: border-box; \x7d
    #notice \x7b position: fixed; bottom: 1rem; right: 1rem; background: #222; color: #fff; padding: 0.5rem 1rem; border-radius: 0.5rem; \x7d
    pre \x7b background: #f5f5f5; padding: 1rem; border-radius: 0.5rem; overflow-x: auto; \x7d
  </style>
</head>
<body>
  <h1>SVG to JSX</h1>
  <div class=\"panes\">
    <section>
      <div class=\"bar\">
        <h2>SVG Input</h2>
        <input type=\"file\" accept=\".svg\" id=\"svg-upload\">
      </div>
      <textarea id=\"svg-input\" placeholder=\"Paste your SVG here...\"></textarea>
    </section>
    <section>
      <div class=\"bar\">
        <h2>JSX Output</h2>
        <button id=\"copy-jsx\" disabled>Copy JSX</button>
      </div>
      <textarea id=\"jsx-output\" readonly placeholder=\"JSX will appear here...\"></textarea>
    </section>
  </div>
  <section id=\"watched-files\"></section>
  <div id=\"notice\" hidden></div>
  <script src=\"/__live.js\"></script>
</body>
</html>".toList

def scriptHead : Text := "
(function() \x7b
  'use strict';

  const input = document.getElementById('svg-input');
  const output = document.getElementById('jsx-output');
  const upload = document.getElementById('svg-upload');
  const copy = document.getElementById('copy-jsx');
  const notice = document.getElementById('notice');
  const files = document.getElementById('watched-files');

  const scheme = location.protocol === 'https:' ? 'wss://' : 'ws://';
  const ws = new WebSocket(scheme + location.host + '".toList

def scriptTail : Text := "');

  function showNotice(message) \x7b
    notice.textContent = message;
    notice.hidden = false;
    clearTimeout(showNotice.timer);
    showNotice.timer = setTimeout(function() \x7b notice.hidden = true; \x7d, 3000);
  \x7d

  function send(text) \x7b
    if (ws.readyState === WebSocket.OPEN) \x7b
      ws.send(text);
    \x7d
  \x7d

  ws.onmessage = function(event) \x7b
    const msg = JSON.parse(event.data);

    switch (msg.type) \x7b
      case 'output':
        output.value = msg.jsx;
        copy.disabled = !msg.jsx;
        break;

      case 'notice':
        output.value = '';
        copy.disabled = true;
        showNotice(msg.message);
        break;

      case 'file_converted':
        const item = document.createElement('details');
        const summary = document.createElement('summary');
        const pre = document.createElement('pre');
        summary.textContent = msg.path;
        pre.textContent = msg.jsx;
        item.append(summary, pre);
        files.prepend(item);
        break;

      case 'connected':
        console.log('[jsxify] Connected');
        break;
    \x7d
  \x7d;

  ws.onclose = function() \x7b
    showNotice('Disconnected from jsxify');
  \x7d;

  input.addEventListener('input', function() \x7b
    send(input.value);
  \x7d);

  upload.addEventListener('change', function() \x7b
    const file = upload.files[0];
    if (!file) return;

    if (!file.name.endsWith('.svg')) \x7b
      showNotice('Please upload an SVG file');
      return;
    \x7d

    const reader = new FileReader();
    reader.onload = function() \x7b
      input.value = reader.result;
      send(reader.result);
    \x7d;
    reader.onerror = function() \x7b
      output.value = '';
      showNotice('Failed to read file');
    \x7d;
    reader.readAsText(file);
  \x7d);

  copy.addEventListener('click', function() \x7b
    if (!output.value) \x7b
      showNotice('No JSX to copy');
      return;
    \x7d
    navigator.clipboard.writeText(output.value).then(function() \x7b
      showNotice('JSX copied to clipboard');
    \x7d);
  \x7d);
\x7d)();
".toList

def clientScript (livePath : Text) : Text := scriptHead ++ livePath ++ scriptTail

end SvgJsx.Playground
